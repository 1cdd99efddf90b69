/-!
# Options — what the compiler may repair and cache

Cloning markup loses some of it in some browsers: text nodes without characters, and the `checked`
state of inputs. The two repairs put them back. The threshold says from how many uses on a
reference to an element is worth keeping before it is needed.
-/

namespace Hydration

/-- **Options of the compiler.** -/
structure Options where
  /-- Put back text nodes without characters. -/
  repairBlankText : Bool := true
  /-- Put back the `checked` state. -/
  repairChecked : Bool := true
  /-- An element used more often than this is cached when it is opened. -/
  cacheThreshold : UInt32 := 1
deriving DecidableEq, Repr

namespace Options

instance : Inhabited Options := ⟨{}⟩

/-- A truth value in words. -/
def flag (b : Bool) : String := if b then "true" else "false"

/-- **A compiler with these options, in words.** -/
def describe (o : Options) : String :=
  "Compiler \x7b options: Options \x7b repair_blank_text: " ++ flag o.repairBlankText ++
    ", repair_checked: " ++ flag o.repairChecked ++
    ", cache_threshold: " ++ String.ofList (Nat.toDigits 10 o.cacheThreshold.toNat) ++ " \x7d \x7d"

end Options

end Hydration
