import Hydration.Number.Binary64

/-!
# Json/Basic — JSON documents

A `Document φ` is a JSON value in which a part may be missing, a *flaw* `φ` standing in its place.
`Json` is the documents without flaws: there is nothing to put there. Documents read from a text
that may break off are in `Json/Draft`.

An object is its members in the order they were written, and may repeat a key. `canonical` puts
them in ascending order of keys and keeps the last of equal ones.
-/

namespace Hydration

/-- **A number of a document**: an integer if it was written as one and fits 64 bits, else a
double. -/
inductive JsonNumber where
  | integer (value : Int)
  | real (value : Binary64)
deriving DecidableEq, Repr

/-- The double nearest to a number. -/
def JsonNumber.toBinary64 : JsonNumber → Binary64
  | .integer n => .ofInt n
  | .real x => x

/-- **A JSON document with flaws of type `φ`.** -/
inductive Document (φ : Type) where
  | null
  | boolean (value : Bool)
  | number (value : JsonNumber)
  | string (value : String)
  | array (items : List (Document φ))
  | object (members : List (String × Document φ))
  | flawed (flaw : φ)

/-- **A JSON value**: a document in which nothing is missing. -/
abbrev Json := Document Empty

namespace Document

variable {φ : Type}

instance : Inhabited (Document φ) := ⟨.null⟩

/-- A count as a JSON integer. -/
def ofNat (n : Nat) : Document φ := .number (.integer n)

/-- Puts a member into its place by key, instead of one with the same key. -/
def insertMember (key : String) (value : Document φ) :
    List (String × Document φ) → List (String × Document φ)
  | [] => [(key, value)]
  | (k, v) :: rest =>
    if key < k then (key, value) :: (k, v) :: rest
    else if key = k then (key, value) :: rest
    else (k, v) :: insertMember key value rest

mutual

/-- **The members of every object in ascending order of keys**, each key once with its last
value. -/
def canonical : Document φ → Document φ
  | .array items => .array (canonicalItems items)
  | .object members => .object (canonicalMembers [] members)
  | .null => .null
  | .boolean b => .boolean b
  | .number n => .number n
  | .string s => .string s
  | .flawed f => .flawed f

/-- `canonical` in a list. -/
def canonicalItems : List (Document φ) → List (Document φ)
  | [] => []
  | item :: items => item.canonical :: canonicalItems items

/-- `canonical` in the members of an object, added to those already in order. -/
def canonicalMembers (done : List (String × Document φ)) :
    List (String × Document φ) → List (String × Document φ)
  | [] => done
  | (key, value) :: members => canonicalMembers (insertMember key value.canonical done) members

end

end Document

end Hydration
