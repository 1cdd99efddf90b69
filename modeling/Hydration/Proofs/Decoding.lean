import Hydration.Proofs.Grammar
import Hydration.Template.Decode

/-!
# Proofs/Decoding — reading a template inverts the grammar

Reading goes through a document once. It fills the slots of a record as the members come, refuses a
second value for a slot, and puts defaults into the slots that stay empty; and a tagged record is
gone through twice. Where no object has a key twice, all this comes to one question per field, the
one that the grammar asks (`fits_empty`).

* `ofJson_iff_encoded`: a JSON value is read as a template exactly if it stands for it.
-/

namespace Hydration

namespace Document

variable {φ : Type}

/-- **No object in a document has a key twice.** -/
inductive DistinctKeys : Document φ → Prop where
  | null : DistinctKeys .null
  | boolean (b : Bool) : DistinctKeys (.boolean b)
  | number (n : JsonNumber) : DistinctKeys (.number n)
  | string (s : String) : DistinctKeys (.string s)
  | array {items : List (Document φ)} (inside : ∀ item ∈ items, item.DistinctKeys) :
      DistinctKeys (.array items)
  | object {members : List (String × Document φ)} (keys : (members.map Prod.fst).Nodup)
      (inside : ∀ member ∈ members, member.2.DistinctKeys) : DistinctKeys (.object members)

attribute [simp] DistinctKeys.null DistinctKeys.boolean DistinctKeys.number DistinctKeys.string

@[simp] theorem distinctKeys_array {items : List (Document φ)} :
    (array items).DistinctKeys ↔ ∀ item ∈ items, item.DistinctKeys := by
  constructor
  · rintro ⟨⟩
    assumption
  · exact .array

@[simp] theorem distinctKeys_object {members : List (String × Document φ)} :
    (object members).DistinctKeys ↔
      (members.map Prod.fst).Nodup ∧ ∀ member ∈ members, member.2.DistinctKeys := by
  constructor
  · rintro ⟨⟩
    exact ⟨‹_›, ‹_›⟩
  · exact fun ⟨keys, inside⟩ => .object keys inside

/-! ## Values have no flaws -/

mutual

theorem toJson_value : (v : Json) → v.toJson = .ok v
  | .null | .boolean _ | .number _ | .string _ => by rw [toJson]
  | .array items => by
    rw [toJson, itemsToJson_value items]
    rfl
  | .object members => by
    rw [toJson, membersToJson_value members]
    rfl

theorem itemsToJson_value : (items : List Json) → itemsToJson items = .ok items
  | [] => by rw [itemsToJson]
  | item :: items => by
    rw [itemsToJson, toJson_value item, itemsToJson_value items]
    rfl

theorem membersToJson_value : (members : List (String × Json)) → membersToJson members = .ok members
  | [] => by rw [membersToJson]
  | (key, value) :: members => by
    rw [membersToJson, toJson_value value, membersToJson_value members]
    rfl

end

mutual

theorem skipDefect?_value : (v : Json) → v.skipDefect? = none
  | .null | .boolean _ | .number _ | .string _ => by simp [skipDefect?]
  | .array items => by rw [skipDefect?, skipDefectItems?_value items]
  | .object members => by rw [skipDefect?, skipDefectMembers?_value members]

theorem skipDefectItems?_value : (items : List Json) → skipDefectItems? items = none
  | [] => by rw [skipDefectItems?]
  | item :: items => by
    rw [skipDefectItems?, skipDefect?_value item, skipDefectItems?_value items]
    rfl

theorem skipDefectMembers?_value :
    (members : List (String × Json)) → skipDefectMembers? members = none
  | [] => by rw [skipDefectMembers?]
  | (key, value) :: members => by
    rw [skipDefectMembers?, skipDefect?_value value, skipDefectMembers?_value members]
    rfl

end

end Document

namespace Template

open Document

theorem skipMember_value (v : Json) : skipMember v = .ok () := by
  cases v with
  | flawed flaw => exact flaw.elim
  | _ => simp only [skipMember, skipDefect?_value, refuse?]

/-! ## Results -/

section

variable {ε α β γ : Type}

theorem pure_eq_ok_iff {a b : α} : (pure a : Except ε α) = .ok b ↔ a = b := by
  simp [pure, Except.pure]

theorem bind_eq_ok_iff {x : Except ε α} {f : α → Except ε β} {b : β} :
    x >>= f = .ok b ↔ ∃ a, x = .ok a ∧ f a = .ok b := by
  cases x <;> simp [bind, Except.bind]

theorem map_eq_ok_iff {x : Except ε α} {f : α → β} {b : β} :
    f <$> x = .ok b ↔ ∃ a, x = .ok a ∧ f a = b := by
  cases x <;> simp [Functor.map, Except.map]

/-- Two results are put together. -/
theorem both_eq_ok_iff {x : Except ε α} {y : Except ε β} {f : α → β → γ} {c : γ} :
    (do let a ← x; return f a (← y)) = .ok c ↔ ∃ a b, x = .ok a ∧ y = .ok b ∧ f a b = c := by
  cases x <;> cases y <;> simp [bind, Except.bind, pure, Except.pure]

/-- A value is put before the others. -/
theorem pair_eq_ok_iff {a c : α} {y : Except ε β} {b : β} :
    (do return (a, ← y)) = .ok (c, b) ↔ a = c ∧ y = .ok b := by
  cases y <;> simp [bind, Except.bind, pure, Except.pure]

end

/-- How tags may be given where a document is read. -/
def Medium.tagging : Medium → Tagging
  | .held => .held
  | _ => .free

theorem Medium.below_tagging (medium : Medium) : medium.tagging.below = .held := by
  cases medium <;> rfl

theorem Medium.tagging_ne_named (medium : Medium) : medium.tagging ≠ .named := by
  cases medium <;> simp [tagging]

theorem Medium.tagging_eq_held {medium : Medium} : medium.tagging = .held ↔ medium = .held := by
  cases medium <;> simp [tagging]

/-- **A value is read as what it stands for**, and as nothing else. -/
def Decodes (v : Json) : Prop :=
  ∀ (medium : Medium) (type : FieldType) (x : type.Carrier),
    read medium v type = .ok x ↔ type.Form medium.tagging x v

/-! ## Single values -/

variable {τ : Tagging}

theorem error_eq_ok_iff {α : Type} {e : DecodeError} {x : α} {p : Prop} (hp : ¬ p) :
    Except.error e = .ok x ↔ p := by
  simp [hp]

/-- Records are objects or arrays. -/
theorem not_isRecord {fields : List FieldForm} {v : Json} (ho : ∀ members, v ≠ .object members)
    (ha : ∀ items, v ≠ .array items) : ¬ IsRecord fields v := by
  rintro (⟨members, h, -⟩ | ⟨items, h, -⟩)
  · exact ho members h
  · exact ha items h

/-- …and so are tagged records. -/
theorem Union.not_form {union : Union} {x : union.Carrier} {v : Json}
    (ho : ∀ members, v ≠ .object members) (ha : ∀ items, v ≠ .array items) :
    ¬ union.Form τ x v := by
  intro h
  obtain ⟨position, variant, y, -, -, h⟩ := Union.form_iff.mp h
  obtain ⟨members, h, -⟩ | ⟨tag, items, h, -⟩ := h
  · exact ho members h
  · exact ha _ h

theorem ofBool_eq_ok_iff (b : Bool) (base : Base) (x : base.Carrier) :
    Base.ofBool b base = .ok x ↔ base.Form τ x (.boolean b) := by
  cases base with
  | boolean =>
    change Bool at x
    change Except.ok b = .ok x ↔ Document.boolean b = .boolean x
    simp
  | string | size | number =>
    exact error_eq_ok_iff (by simp [Base.Form, IsString, IsSize, IsNumber])
  | record kind => exact error_eq_ok_iff (not_isRecord (by simp) (by simp))
  | union u => exact error_eq_ok_iff (u.not_form (by simp) (by simp))

theorem ofString_eq_ok_iff (s : String) (base : Base) (x : base.Carrier) :
    Base.ofString s base = .ok x ↔ base.Form τ x (.string s) := by
  cases base with
  | string =>
    change String at x
    change Except.ok s = .ok x ↔ Document.string s = .string x
    simp
  | boolean | size | number =>
    exact error_eq_ok_iff (by simp [Base.Form, IsBoolean, IsSize, IsNumber])
  | record kind => exact error_eq_ok_iff (not_isRecord (by simp) (by simp))
  | union u => exact error_eq_ok_iff (u.not_form (by simp) (by simp))

theorem ofNumber_eq_ok_iff (n : JsonNumber) (base : Base) (x : base.Carrier) :
    Base.ofNumber n base = .ok x ↔ base.Form τ x (.number n) := by
  cases base with
  | number =>
    change Binary64 at x
    change Except.ok n.toBinary64 = .ok x ↔ IsNumber x (.number n)
    simp [IsNumber]
  | size =>
    change Nat at x
    match n with
    | .integer (.ofNat n) =>
      have hpow : Nat.pow 2 64 = 2 ^ 64 := rfl
      change (if n < Nat.pow 2 64 then Except.ok n else .error DecodeError.invalidType) = .ok x ↔
        Document.number (.integer n) = .number (.integer x) ∧ x < 2 ^ 64
      rw [hpow]
      have hn : Document.number (φ := Empty) (.integer n) = .number (.integer x) ↔ n = x := by
        rw [Document.number.injEq, JsonNumber.integer.injEq, Int.ofNat_inj]
      rw [hn]
      split
      · next h => exact ⟨fun hx => ⟨Except.ok.inj hx, Except.ok.inj hx ▸ h⟩, fun hx => hx.1 ▸ rfl⟩
      · next h => exact error_eq_ok_iff fun hx => h (hx.1 ▸ hx.2)
    | .integer (.negSucc n) => exact error_eq_ok_iff (by simp [Base.Form, IsSize])
    | .real y => exact error_eq_ok_iff (by simp [Base.Form, IsSize])
  | string | boolean => exact error_eq_ok_iff (by simp [Base.Form, IsString, IsBoolean])
  | record kind => exact error_eq_ok_iff (not_isRecord (by simp) (by simp))
  | union u => exact error_eq_ok_iff (u.not_form (by simp) (by simp))

/-- Null is no single value. -/
theorem Base.not_form_null (base : Base) (x : base.Carrier) : ¬ base.Form τ x .null := by
  cases base with
  | string | boolean | size | number => simp [Base.Form, IsString, IsBoolean, IsSize, IsNumber]
  | record kind => exact not_isRecord (by simp) (by simp)
  | union u => exact u.not_form (by simp) (by simp)

theorem acceptNull_eq_ok_iff (type : FieldType) (x : type.Carrier) :
    type.acceptNull = .ok x ↔ type.Form τ x .null := by
  cases type with
  | one base => exact error_eq_ok_iff (base.not_form_null x)
  | optional base =>
    change Option base.Carrier at x
    change Except.ok none = .ok x ↔ IsNullable (x.map (base.Form τ)) .null
    cases x with
    | none => simp [IsNullable]
    | some x => simp [IsNullable, base.not_form_null]
  | list base => exact error_eq_ok_iff (by simp [FieldType.Form, IsList])

theorem accept_eq_ok_iff {v : Json} (hv : v ≠ .null)
    {one : (base : Base) → Except DecodeError base.Carrier}
    {list : (base : Base) → Except DecodeError (List base.Carrier)}
    (hone : ∀ base x, one base = .ok x ↔ base.Form τ x v)
    (hlist : ∀ base xs, list base = .ok xs ↔ IsList (xs.map (base.Form τ)) v)
    (type : FieldType) (x : type.Carrier) :
    type.accept one list = .ok x ↔ type.Form τ x v := by
  cases type with
  | one base => exact hone base x
  | optional base =>
    change Option base.Carrier at x
    change some <$> one base = .ok x ↔ IsNullable (x.map (base.Form τ)) v
    rw [map_eq_ok_iff]
    cases x with
    | none => simp [IsNullable, hv]
    | some x => simp [IsNullable, hv, hone]
  | list base => exact hlist base x

theorem acceptOne_eq_ok_iff {v : Json} (hv : v ≠ .null) (ha : ∀ items, v ≠ .array items)
    {one : (base : Base) → Except DecodeError base.Carrier}
    (hone : ∀ base x, one base = .ok x ↔ base.Form τ x v) (type : FieldType) (x : type.Carrier) :
    type.acceptOne one = .ok x ↔ type.Form τ x v :=
  accept_eq_ok_iff hv hone (by simp [IsList, ha]) type x

/-! ## Fields in order -/

theorem fieldForm_isDefault {f : Field} {x : f.type.Carrier} :
    (f.fieldForm τ x).isDefault ↔ f.default = some x := by
  rw [Field.fieldForm]
  cases f.default with
  | none => simp
  | some value => simp [eq_comm]

theorem remainder_eq_ok_iff (fields : List Field) (values : Values fields) :
    remainder fields = .ok values ↔ ∀ f ∈ valueForms τ fields values, f.isDefault := by
  induction fields with
  | nil => exact ⟨fun _ => by simp [valueForms], fun _ => rfl⟩
  | cons f fields ih =>
    obtain ⟨x, values⟩ := values
    rw [valueForms, List.forall_mem_cons, ← ih, fieldForm_isDefault, remainder]
    cases f.default with
    | none => simp
    | some value =>
      rw [Option.some.injEq]
      exact pair_eq_ok_iff

/-- **A list is read item by item.** -/
theorem readItems_eq_ok_iff (medium : Medium) {items : List Json} (h : ∀ item ∈ items, Decodes item)
    (base : Base) (xs : List base.Carrier) :
    readItems medium items base = .ok xs ↔
      List.Forall₂ (fun form item => form item) (xs.map (base.Form medium.tagging)) items := by
  induction items generalizing xs with
  | nil =>
    rw [readItems]
    cases xs <;> simp
  | cons item items ih =>
    have hitem := h item List.mem_cons_self medium (.one base)
    have ih := ih fun item' h' => h item' (List.mem_cons_of_mem _ h')
    rw [readItems]
    refine both_eq_ok_iff.trans ⟨?_, ?_⟩
    · rintro ⟨x, xs, hx, hxs, rfl⟩
      exact .cons ((hitem x).mp hx) ((ih xs).mp hxs)
    · intro hf
      cases xs with
      | nil => cases hf
      | cons x xs =>
        obtain ⟨hx, hxs⟩ := List.forall₂_cons.mp hf
        exact ⟨x, xs, (hitem x).mpr hx, (ih xs).mpr hxs, rfl⟩

/-- **An array is read field by field**, and defaults at its end. -/
theorem readPositional_eq_ok_iff (medium : Medium) {items : List Json}
    (h : ∀ item ∈ items, Decodes item) (fields : List Field) (values : Values fields) :
    readPositional medium items fields = .ok values ↔
      InOrder items (valueForms medium.tagging fields values) := by
  induction items generalizing fields with
  | nil =>
    rw [readPositional, remainder_eq_ok_iff (τ := medium.tagging)]
    rfl
  | cons item items ih =>
    have ih := ih fun item' h' => h item' (List.mem_cons_of_mem _ h')
    cases fields with
    | nil =>
      rw [readPositional]
      exact error_eq_ok_iff (by simp [valueForms, InOrder])
    | cons f fields =>
      obtain ⟨x, values⟩ := values
      have hitem := h item List.mem_cons_self medium f.type
      rw [readPositional]
      refine both_eq_ok_iff.trans ⟨?_, ?_⟩
      · rintro ⟨x, values, hx, hvalues, h⟩
        cases h
        exact ⟨(hitem x).mp hx, (ih fields values).mp hvalues⟩
      · rintro ⟨hx, hvalues⟩
        exact ⟨x, values, (hitem x).mpr hx, (ih fields values).mpr hvalues, rfl⟩

/-! ## Fields by name -/

/-- **What a field comes to**, given its slot and the members still to be read. -/
def Field.Fits (τ : Tagging) (members : List (String × Json)) (f : Field)
    (slot : Option f.type.Carrier) (x : f.type.Carrier) : Prop :=
  match slot with
  | some y => y = x ∧ f.name ∉ members.map Prod.fst
  | none => (f.fieldForm τ x).IsIn members

/-- **What the fields come to**, given their slots and the members still to be read. -/
def Fits (τ : Tagging) (members : List (String × Json)) :
    (fields : List Field) → Slots fields → Values fields → Prop
  | [], _, _ => True
  | f :: fields, (slot, slots), (x, values) =>
    f.Fits τ members slot x ∧ Fits τ members fields slots values

/-- With nothing read yet, that is the question of the grammar. -/
theorem fits_empty (members : List (String × Json)) (fields : List Field) (values : Values fields) :
    Fits τ members fields (Slots.empty fields) values ↔
      ByName members (valueForms τ fields values) := by
  induction fields with
  | nil => simp [Fits, valueForms, ByName]
  | cons f fields ih =>
    obtain ⟨x, values⟩ := values
    rw [ByName, valueForms, List.forall_mem_cons]
    exact and_congr Iff.rfl (ih values)

/-- With nothing left to read, the slots are final. -/
theorem finish_eq_ok_iff (fields : List Field) (slots : Slots fields) (values : Values fields) :
    slots.finish = .ok values ↔ Fits τ [] fields slots values := by
  induction fields with
  | nil => exact ⟨fun _ => trivial, fun _ => rfl⟩
  | cons f fields ih =>
    obtain ⟨slot, slots⟩ := slots
    obtain ⟨x, values⟩ := values
    have hf : f.Fits τ [] slot x ↔ (slot <|> f.default) = some x := by
      cases slot with
      | none => simp [Field.Fits, FieldForm.IsIn, fieldForm_isDefault]
      | some y => simp [Field.Fits]
    change _ ↔ f.Fits τ [] slot x ∧ Fits τ [] fields slots values
    rw [Slots.finish, hf, ← ih]
    cases slot <|> f.default with
    | none => simp
    | some value =>
      rw [Option.some.injEq]
      exact pair_eq_ok_iff

section

variable {key : String} {value : Json} {members : List (String × Json)} {f : Field}
  {x : f.type.Carrier}

/-- A member is nothing to a field with another name. -/
theorem Field.fits_cons_of_ne (h : f.name ≠ key) (slot : Option f.type.Carrier) :
    f.Fits τ ((key, value) :: members) slot x ↔ f.Fits τ members slot x := by
  cases slot <;> simp [Field.Fits, FieldForm.IsIn, Field.fieldForm, h]

/-- A member is all there is for the field that it names. -/
theorem Field.fits_cons_self (h : f.name ∉ members.map Prod.fst) :
    f.Fits τ ((f.name, value) :: members) none x ↔ f.type.Form τ x value := by
  constructor
  · rintro (⟨value', hm, hv⟩ | ⟨hk, -⟩)
    · rcases List.mem_cons.mp hm with he | hm
      · cases he
        exact hv
      · exact absurd (List.mem_map_of_mem hm) h
    · exact absurd List.mem_cons_self hk
  · exact fun hv => .inl ⟨value, List.mem_cons_self, hv⟩

end

section

variable {f : Field} {fields : List Field} {key : String} {skip : Except DecodeError Unit}
  {read : (type : FieldType) → Except DecodeError type.Carrier}

theorem Slots.put_of_ne (h : f.name ≠ key) (slot : Option f.type.Carrier) (slots : Slots fields) :
    Slots.put key skip read (f :: fields) (slot, slots) =
      (do return (slot, ← Slots.put key skip read fields slots)) :=
  if_neg h

theorem Slots.put_self (slots : Slots fields) :
    Slots.put f.name skip read (f :: fields) (none, slots) =
      (do return (some (← read f.type), slots)) :=
  if_pos rfl

theorem Slots.put_again (y : f.type.Carrier) (slots : Slots fields) :
    Slots.put f.name skip read (f :: fields) (some y, slots) =
      .error (.duplicateField f.name) :=
  if_pos rfl

end

/-- Members that name no field are nothing to the fields. -/
theorem fits_cons_of_not_mem {key : String} {value : Json} {members : List (String × Json)}
    {fields : List Field} (h : key ∉ fields.map Field.name) (slots : Slots fields)
    (values : Values fields) :
    Fits τ ((key, value) :: members) fields slots values ↔ Fits τ members fields slots values := by
  induction fields with
  | nil => exact Iff.rfl
  | cons f fields ih =>
    obtain ⟨slot, slots⟩ := slots
    obtain ⟨x, values⟩ := values
    obtain ⟨hf, h⟩ := List.ne_and_not_mem_of_not_mem_cons h
    exact and_congr (Field.fits_cons_of_ne hf.symm slot) (ih h slots values)

/-- **One member is read**: what the fields come to afterwards is what they came to before. -/
theorem put_fits_iff (medium : Medium) {key : String} {value : Json} (hv : Decodes value)
    {members : List (String × Json)} (hk : key ∉ members.map Prod.fst) {fields : List Field}
    (hn : (fields.map Field.name).Nodup) (slots : Slots fields) (values : Values fields) :
    (∃ slots', Slots.put key (skipMember value) (read medium value) fields slots = .ok slots' ∧
        Fits medium.tagging members fields slots' values) ↔
      Fits medium.tagging ((key, value) :: members) fields slots values := by
  induction fields with
  | nil =>
    have hput : Slots.put key (skipMember value) (read medium value) [] slots = .ok () := by
      rw [skipMember_value]
      rfl
    exact ⟨fun _ => trivial, fun _ => ⟨(), hput, trivial⟩⟩
  | cons f fields ih =>
    obtain ⟨slot, slots⟩ := slots
    obtain ⟨x, values⟩ := values
    obtain ⟨hf, hn⟩ := List.nodup_cons.mp hn
    by_cases hkey : f.name = key
    · subst hkey
      -- No other field has this name, and no later member has it.
      have hrest : Fits medium.tagging ((f.name, value) :: members) fields slots values ↔
          Fits medium.tagging members fields slots values := fits_cons_of_not_mem hf slots values
      cases slot with
      | some y =>
        simp only [Slots.put_again]
        constructor
        · rintro ⟨slots', h, -⟩
          cases h
        · rintro ⟨⟨-, h⟩, -⟩
          exact absurd List.mem_cons_self h
      | none =>
        simp only [Slots.put_self]
        constructor
        · rintro ⟨slots', h, hfits⟩
          obtain ⟨y, hy, h⟩ := bind_eq_ok_iff.mp h
          cases h
          obtain ⟨⟨rfl, -⟩, hfits⟩ := hfits
          exact ⟨(Field.fits_cons_self hk).mpr ((hv medium f.type y).mp hy), hrest.mpr hfits⟩
        · rintro ⟨hx, hfits⟩
          have hx := (hv medium f.type x).mpr ((Field.fits_cons_self hk).mp hx)
          exact ⟨(some x, slots), bind_eq_ok_iff.mpr ⟨x, hx, rfl⟩, ⟨rfl, hk⟩, hrest.mp hfits⟩
    · simp only [Slots.put_of_ne hkey]
      constructor
      · rintro ⟨slots', h, hfits⟩
        obtain ⟨rest, hput, h⟩ := bind_eq_ok_iff.mp h
        cases h
        obtain ⟨hx, hfits⟩ := hfits
        exact ⟨(Field.fits_cons_of_ne hkey slot).mpr hx,
          (ih hn slots values).mp ⟨rest, hput, hfits⟩⟩
      · rintro ⟨hx, hfits⟩
        obtain ⟨rest, hput, hfits⟩ := (ih hn slots values).mpr hfits
        exact ⟨(slot, rest), bind_eq_ok_iff.mpr ⟨rest, hput, rfl⟩,
          (Field.fits_cons_of_ne hkey slot).mp hx, hfits⟩

/-- **All members are read.** -/
theorem readMembers_fits_iff (medium : Medium) {members : List (String × Json)}
    (hm : (members.map Prod.fst).Nodup) (hv : ∀ member ∈ members, Decodes member.2)
    {fields : List Field} (hn : (fields.map Field.name).Nodup) (slots : Slots fields)
    (values : Values fields) :
    (∃ slots', readMembers medium members fields slots = .ok slots' ∧
        slots'.finish = .ok values) ↔
      Fits medium.tagging members fields slots values := by
  induction members generalizing slots with
  | nil =>
    rw [← finish_eq_ok_iff]
    simp [readMembers]
  | cons member members ih =>
    obtain ⟨key, value⟩ := member
    obtain ⟨hk, hm⟩ := List.nodup_cons.mp hm
    have ih := ih hm fun member hmem => hv member (List.mem_cons_of_mem _ hmem)
    rw [← put_fits_iff medium (hv (key, value) List.mem_cons_self) hk hn]
    simp only [readMembers, bind_eq_ok_iff, ← ih]
    constructor
    · rintro ⟨slots', ⟨slots'', hput, hread⟩, hfinish⟩
      exact ⟨slots'', hput, slots', hread, hfinish⟩
    · rintro ⟨slots'', hput, slots', hread, hfinish⟩
      exact ⟨slots', ⟨slots'', hput, hread⟩, hfinish⟩

theorem nodup_names (kind : Kind) : (kind.fields.map Field.name).Nodup := by
  cases kind <;> decide

/-- **What is made of the members of an object is made of its fields.** -/
theorem readMembers_eq_ok_iff (medium : Medium) {members : List (String × Json)}
    (hm : (members.map Prod.fst).Nodup) (hv : ∀ member ∈ members, Decodes member.2) (kind : Kind)
    {α : Type} {make : Values kind.fields → α} {x : α} :
    (do let slots ← readMembers medium members kind.fields (Slots.empty _)
        return make (← slots.finish)) = .ok x ↔
      ∃ values, ByName members (valueForms medium.tagging kind.fields values) ∧
        make values = x := by
  simp only [bind_eq_ok_iff, pure_eq_ok_iff, ← fits_empty,
    ← readMembers_fits_iff medium hm hv (nodup_names kind)]
  constructor
  · rintro ⟨slots, hread, values, hfinish, rfl⟩
    exact ⟨values, ⟨slots, hread, hfinish⟩, rfl⟩
  · rintro ⟨values, ⟨slots, hread, hfinish⟩, rfl⟩
    exact ⟨slots, hread, values, hfinish, rfl⟩

/-! ## Tags -/

theorem find?_name_eq_some_iff {union : Union} {variants : List (Variant union)}
    (hn : (variants.map Variant.name).Nodup) {name : String} {variant : Variant union} :
    variants.find? (·.name == name) = some variant ↔ variant ∈ variants ∧ variant.name = name := by
  induction variants with
  | nil => simp
  | cons first variants ih =>
    obtain ⟨hf, hn⟩ := List.nodup_cons.mp hn
    by_cases h : first.name = name
    · subst h
      rw [List.find?_cons_of_pos (by simp), Option.some.injEq, List.mem_cons]
      constructor
      · rintro rfl
        exact ⟨.inl rfl, rfl⟩
      · rintro ⟨rfl | hm, he⟩
        · rfl
        · exact absurd (he ▸ List.mem_map_of_mem hm) hf
    · rw [List.find?_cons_of_neg (by simpa using h), ih hn, List.mem_cons]
      constructor
      · exact fun ⟨hm, he⟩ => ⟨.inr hm, he⟩
      · rintro ⟨rfl | hm, he⟩
        · exact absurd he h
        · exact ⟨hm, he⟩

theorem nodup_variants (union : Union) : (union.variants.map Variant.name).Nodup := by
  cases union <;> decide

/-- **A tag is read as the variant that it names**, or stands at. -/
theorem readTag_eq_ok_iff (medium : Medium) (union : Union) (tag : Json)
    (variant : Variant union) :
    readTag medium union tag = .ok variant ↔
      ∃ position, union.variants[position]? = some variant ∧
        medium.tagging.IsTag variant.name position tag := by
  match tag with
  | .string name =>
    have hfind : union.variants.find? (·.name == name) = some variant ↔
        (∃ position : Nat, union.variants[position]? = some variant) ∧ variant.name = name := by
      rw [find?_name_eq_some_iff (nodup_variants union), List.mem_iff_getElem?]
    have hread : readTag (φ := Empty) medium union (.string name) = .ok variant ↔
        union.variants.find? (·.name == name) = some variant := by
      rw [readTag]
      cases union.variants.find? (·.name == name) <;> simp
    rw [hread, hfind]
    simp [Tagging.IsTag, eq_comm]
  | .number (.integer (.ofNat n)) =>
    rw [readTag]
    by_cases hm : medium = .held
    · subst hm
      have hread : readTag (φ := Empty) .held union (.number (.integer n)) = .ok variant ↔
          union.variants[n]? = some variant := by
        simp only [readTag, if_pos]
        cases union.variants[n]? <;> simp
      have htag : ∀ position, Medium.held.tagging.IsTag variant.name position
          (.number (.integer n)) ↔ n = position := by
        simp only [Tagging.IsTag, Medium.tagging, reduceCtorEq, true_and, false_or,
          Document.number.injEq, JsonNumber.integer.injEq, Int.ofNat_inj, implies_true]
      refine hread.trans ⟨fun h => ⟨n, h, (htag n).mpr rfl⟩, ?_⟩
      rintro ⟨position, h, ht⟩
      rwa [(htag position).mp ht]
    · rw [if_neg hm]
      exact error_eq_ok_iff (by simp [Tagging.IsTag, Medium.tagging_eq_held, hm])
  | .number (.integer (.negSucc n)) => exact error_eq_ok_iff (by simp [Tagging.IsTag])
  | .null | .boolean _ | .number (.real _) | .array _ | .object _ =>
    exact error_eq_ok_iff (by simp [Tagging.IsTag])

theorem findTag_some (medium : Medium) {union : Union} (variant : Variant union)
    {members : List (String × Json)} (h : "type" ∉ members.map Prod.fst) :
    findTag medium union (some variant) members = .ok variant := by
  induction members with
  | nil => rfl
  | cons member members ih =>
    obtain ⟨key, value⟩ := member
    obtain ⟨hk, h⟩ := List.ne_and_not_mem_of_not_mem_cons h
    rw [findTag, if_neg (Ne.symm hk), toJson_value]
    exact ih h

/-- **The tag of an object is its member `type`.** -/
theorem findTag_eq_ok_iff (medium : Medium) (union : Union) {members : List (String × Json)}
    (hm : (members.map Prod.fst).Nodup) (variant : Variant union) :
    findTag medium union none members = .ok variant ↔
      ∃ tag, ("type", tag) ∈ members ∧ readTag medium union tag = .ok variant := by
  induction members with
  | nil => simp [findTag]
  | cons member members ih =>
    obtain ⟨key, value⟩ := member
    obtain ⟨hk, hm⟩ := List.nodup_cons.mp hm
    by_cases h : key = "type"
    · subst h
      have hfind : findTag medium union none (("type", value) :: members) = .ok variant ↔
          readTag medium union value = .ok variant := by
        rw [findTag, if_pos rfl]
        refine bind_eq_ok_iff.trans ⟨?_, fun h => ⟨variant, h, findTag_some medium variant hk⟩⟩
        rintro ⟨found, hr, hf⟩
        rw [findTag_some medium found hk] at hf
        rwa [Except.ok.inj hf] at hr
      rw [hfind]
      constructor
      · exact fun h => ⟨value, List.mem_cons_self, h⟩
      · rintro ⟨tag, ht, h⟩
        rcases List.mem_cons.mp ht with he | ht
        · cases he
          exact h
        · exact absurd (List.mem_map_of_mem ht) hk
    · rw [findTag, if_neg h, toJson_value]
      refine (ih hm).trans (exists_congr fun tag => and_congr_left fun _ => ?_)
      simp [Ne.symm h]

/-! ## Documents -/

theorem isRecord_object {fields : List FieldForm} {members : List (String × Json)} :
    IsRecord fields (.object members) ↔ ByName members fields := by
  simp [IsRecord]

theorem isRecord_array {fields : List FieldForm} {items : List Json} :
    IsRecord fields (.array items) ↔ InOrder items fields := by
  simp [IsRecord]

theorem isTagged_object {name : String} {position : Nat} {fields : List FieldForm}
    {members : List (String × Json)} :
    IsTagged τ name position fields (.object members) ↔
      (∃ tag, ("type", tag) ∈ members ∧ τ.IsTag name position tag) ∧ ByName members fields := by
  simp [IsTagged]

theorem isTagged_array (hτ : τ ≠ .named) {name : String} {position : Nat}
    {fields : List FieldForm} {tag : Json} {items : List Json} :
    IsTagged τ name position fields (.array (tag :: items)) ↔
      τ.IsTag name position tag ∧ InOrder items fields := by
  simp [IsTagged, hτ]

/-- **What a tagged record stands for**, if it has its tag in the place `C` and `P` says which
fields it has: the tag is read as a variant, and the fields are those of its record. -/
theorem form_iff_readTag (medium : Medium) {union : Union} {x : union.Carrier} {v : Json}
    {C : Json → Prop} {P : List FieldForm → Prop}
    (hv : ∀ name position fields, IsTagged medium.tagging name position fields v ↔
      (∃ tag, C tag ∧ medium.tagging.IsTag name position tag) ∧ P fields) :
    union.Form medium.tagging x v ↔
      ∃ variant, (∃ tag, C tag ∧ readTag medium union tag = .ok variant) ∧
        ∃ values, P (valueForms .held variant.kind.fields values) ∧
          variant.inject (variant.kind.build values) = x := by
  rw [Union.form_iff]
  simp only [hv, medium.below_tagging, readTag_eq_ok_iff]
  constructor
  · rintro ⟨position, variant, y, hp, rfl, ⟨tag, hc, ht⟩, h⟩
    obtain ⟨values, hvalues, rfl⟩ := (exists_build_iff (P := P)).mpr h
    exact ⟨variant, ⟨tag, hc, position, hp, ht⟩, values, hvalues, rfl⟩
  · rintro ⟨variant, ⟨tag, hc, position, hp, ht⟩, values, h, rfl⟩
    exact ⟨position, variant, _, hp, rfl, ⟨tag, hc, ht⟩, by rwa [fieldForms_build]⟩

theorem readUnion_array (medium : Medium) (union : Union) (x : union.Carrier) (tag : Json)
    {items : List Json} (h : ∀ item ∈ items, Decodes item) :
    (do let variant ← readTag medium union tag
        let _ ← (itemsToJson items).mapError DecodeError.defective
        return variant.inject
          (variant.kind.build (← readPositional .held items variant.kind.fields))) = .ok x ↔
      union.Form medium.tagging x (.array (tag :: items)) := by
  have htagged : ∀ name position fields,
      IsTagged medium.tagging name position fields (.array (tag :: items)) ↔
        (∃ tag', tag' = tag ∧ medium.tagging.IsTag name position tag') ∧ InOrder items fields := by
    simp [isTagged_array medium.tagging_ne_named]
  rw [form_iff_readTag medium htagged, itemsToJson_value]
  simp only [exists_eq_left]
  refine bind_eq_ok_iff.trans (exists_congr fun variant => and_congr_right fun _ => ?_)
  refine (bind_eq_ok_iff (x := readPositional .held items variant.kind.fields)).trans
    (exists_congr fun values => ?_)
  rw [pure_eq_ok_iff, readPositional_eq_ok_iff .held h]
  rfl

theorem readUnion_object (medium : Medium) (union : Union) (x : union.Carrier)
    {members : List (String × Json)} (hm : (members.map Prod.fst).Nodup)
    (h : ∀ member ∈ members, Decodes member.2) :
    (do let variant ← findTag medium union none members
        let slots ← readMembers .held members variant.kind.fields (Slots.empty _)
        return variant.inject (variant.kind.build (← slots.finish))) = .ok x ↔
      union.Form medium.tagging x (.object members) := by
  rw [form_iff_readTag medium fun _ _ _ => isTagged_object]
  simp only [← findTag_eq_ok_iff medium union hm]
  refine bind_eq_ok_iff.trans (exists_congr fun variant => and_congr_right fun _ => ?_)
  exact readMembers_eq_ok_iff .held hm h variant.kind

theorem decodes_array {items : List Json} (h : ∀ item ∈ items, Decodes item) :
    Decodes (.array items) := by
  intro medium type x
  rw [read]
  refine accept_eq_ok_iff (by simp) ?_ ?_ type x
  · intro base x
    match base, items with
    | .record kind, items =>
      refine map_eq_ok_iff.trans (Iff.trans ?_ isRecord_array.symm)
      simp only [readPositional_eq_ok_iff medium h]
      exact exists_build_iff
    | .union union, [] =>
      refine error_eq_ok_iff fun hx => ?_
      obtain ⟨position, variant, y, -, -, hx⟩ := Union.form_iff.mp hx
      simp [IsTagged] at hx
    | .union union, tag :: items =>
      exact readUnion_array medium union x tag fun item hi => h item (List.mem_cons_of_mem _ hi)
    | .string, _ | .boolean, _ | .size, _ | .number, _ =>
      exact error_eq_ok_iff (by simp [Base.Form, IsString, IsBoolean, IsSize, IsNumber])
  · intro base xs
    rw [readItems_eq_ok_iff medium h]
    simp [IsList]

theorem decodes_object {members : List (String × Json)} (hm : (members.map Prod.fst).Nodup)
    (h : ∀ member ∈ members, Decodes member.2) : Decodes (.object members) := by
  intro medium type x
  rw [read]
  refine acceptOne_eq_ok_iff (by simp) (by simp) ?_ type x
  intro base x
  cases base with
  | record kind =>
    exact (readMembers_eq_ok_iff medium hm h kind).trans
      (exists_build_iff.trans isRecord_object.symm)
  | union union => exact readUnion_object medium union x hm h
  | string | boolean | size | number =>
    exact error_eq_ok_iff (by simp [Base.Form, IsString, IsBoolean, IsSize, IsNumber])

/-- **Every value without repeated keys is read as what it stands for.** -/
theorem decodes {v : Json} (h : v.DistinctKeys) : Decodes v := by
  induction h with
  | null =>
    intro medium type x
    rw [read]
    exact acceptNull_eq_ok_iff type x
  | boolean b =>
    intro medium type x
    rw [read]
    exact acceptOne_eq_ok_iff (by simp) (by simp) (ofBool_eq_ok_iff b) type x
  | number n =>
    intro medium type x
    rw [read]
    exact acceptOne_eq_ok_iff (by simp) (by simp) (ofNumber_eq_ok_iff n) type x
  | string s =>
    intro medium type x
    rw [read]
    exact acceptOne_eq_ok_iff (by simp) (by simp) (ofString_eq_ok_iff s) type x
  | array _ ih => exact decodes_array ih
  | object keys _ ih => exact decodes_object keys ih

/-- **A JSON value without repeated keys is read as a template exactly if it stands for it**, with
tags given as freely as they may be. -/
theorem ofJson_iff_encoded {v : Json} (h : v.DistinctKeys) (t : Template) :
    ofJson v = .ok t ↔ t.EncodedBy .free v :=
  decodes h .value (.one (.record .template)) t

/-- A document that takes its liberties: unknown members, records as arrays, a tag in an array, and
a tag by position. -/
def looseDocument : Json := .object [
  ("extra", .array [.null]),
  ("program", .object [
    ("type", .string "ignored"),
    ("span", .object [("n", .number (.integer 5)), ("m", .number (.integer 2))]),
    ("body", .array [
      .array [.string "ElementNode", .string "ul", .array [
        .array [.string "class", .array [
          .object [("chars", .string "list"), ("type", .string "TextNode")]]]]],
      .object [
        ("program", .array [.array [], .array [.string "item"]]),
        ("inverse", .null),
        ("sexpr", .object [
          ("params", .array [
            .object [("parts", .array [.string "items"]), ("type", .number (.integer 0))]]),
          ("path", .array [.array [.string "each"]])]),
        ("type", .string "BlockStatement")]])])]

/-- The template that it stands for. -/
def loose : Template where
  root := {
    body := [
      .element {
        tag := "ul"
        attributes := [{ name := "class", value := [.text { chars := "list" }] }] },
      .block {
        call := {
          callee := { segments := ["each"] }
          params := [.path { segments := ["items"] }] }
        body := { body := [], blockParams := ["item"] } }]
    span := ⟨2, 5⟩ }

theorem ofJson_iff_encoded_loose :
    looseDocument.DistinctKeys ∧ ofJson looseDocument = .ok loose ∧
      loose.EncodedBy .free looseDocument := by
  have hd : looseDocument.DistinctKeys := by simp [looseDocument]
  have hr : ofJson looseDocument = .ok loose := rfl
  exact ⟨hd, hr, (ofJson_iff_encoded hd loose).mp hr⟩

/-- A text that is tagged in an array. -/
def terseDocument : Json := .object [
  ("program", .object [("body", .array [.array [.string "TextNode", .string "hi"]])])]

/-- **The grammar on paper leaves out documents that are read.** -/
theorem ofJson_terse_not_named :
    terseDocument.DistinctKeys ∧
      ofJson terseDocument = .ok { root := { body := [.text { chars := "hi" }] } } ∧
      ¬ EncodedBy .named { root := { body := [.text { chars := "hi" }] } } terseDocument := by
  refine ⟨by simp [terseDocument], rfl, ?_⟩
  simp [terseDocument, EncodedBy, fieldForms, isRecord_object, ByName, FieldForm.IsIn,
    FieldForm.required, Fragment.fieldForms, IsList, statementForms, Statement.Form, IsTagged]

end Template

end Hydration
