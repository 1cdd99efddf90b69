import Hydration.Json.Basic
import Hydration.Template.Schema
import Mathlib.Algebra.Order.Ring.Nat
import Mathlib.Data.List.Forall2

/-!
# Proofs/Grammar — the documents of a template

Which JSON values stand for which trees, by recursion on the tree. Every node has its fields, each
with the values that stand for what the tree has there, and whether that is the default, so that the
field may be left out. A record is an object with these fields, whatever else is in it, or an array
of them in order. A tagged record names its variant besides.

How a tag may be given is a parameter. `Tagging.named` is the grammar on paper: an object with the
name in the member `type`. `Tagging.free` has arrays as well, which start with the tag, and in the
fields of a tagged record the tag of another may be a number, the position of the variant
(`Tagging.held`).

Nothing here is read off the tables of `Template/Schema`; they are found to say the same
(`fieldForms_build`, `Union.form_iff`).
-/

namespace Hydration.Template

/-! ## Forms of values -/

/-- **How tags may be given.** -/
inductive Tagging where
  /-- As a name, in the member `type` of an object. -/
  | named
  /-- As a name, also as the first item of an array. -/
  | free
  /-- As a name or a position, in an object or an array. -/
  | held
deriving DecidableEq, Repr

/-- How tags may be given in the fields of a tagged record. -/
def Tagging.below : Tagging → Tagging
  | .named => .named
  | .free | .held => .held

/-- **A field of a node**: its name, the values that stand for what the node has there, and whether
that is the default. -/
structure FieldForm where
  name : String
  form : Json → Prop
  isDefault : Prop

/-- A field that must be there. -/
def FieldForm.required (name : String) (form : Json → Prop) : FieldForm := ⟨name, form, False⟩

/-- The members of an object have the field, or leave out the default. -/
def FieldForm.IsIn (f : FieldForm) (members : List (String × Json)) : Prop :=
  (∃ value, (f.name, value) ∈ members ∧ f.form value) ∨
    f.name ∉ members.map Prod.fst ∧ f.isDefault

/-- **Fields by name**, in any order and among others. -/
def ByName (members : List (String × Json)) (fields : List FieldForm) : Prop :=
  ∀ f ∈ fields, f.IsIn members

/-- **Fields in order**, of which defaults may be left off at the end. -/
def InOrder : List Json → List FieldForm → Prop
  | [], fields => ∀ f ∈ fields, f.isDefault
  | _ :: _, [] => False
  | item :: items, f :: fields => f.form item ∧ InOrder items fields

def IsString (s : String) (v : Json) : Prop := v = .string s

def IsBoolean (b : Bool) (v : Json) : Prop := v = .boolean b

/-- An offset is an integer of 64 bits. -/
def IsSize (n : Nat) (v : Json) : Prop := v = .number (.integer n) ∧ n < 2 ^ 64

/-- A double is any number that it is nearest to. -/
def IsNumber (x : Binary64) (v : Json) : Prop := ∃ n : JsonNumber, v = .number n ∧ n.toBinary64 = x

/-- A list is an array. -/
def IsList (forms : List (Json → Prop)) (v : Json) : Prop :=
  ∃ items, v = .array items ∧ List.Forall₂ (fun form item => form item) forms items

/-- Null stands for what is absent. -/
def IsNullable (form? : Option (Json → Prop)) (v : Json) : Prop :=
  v = .null ∧ form? = none ∨ ∃ form, form? = some form ∧ form v

/-- **A record** is an object or an array. -/
def IsRecord (fields : List FieldForm) (v : Json) : Prop :=
  (∃ members, v = .object members ∧ ByName members fields) ∨
    ∃ items, v = .array items ∧ InOrder items fields

/-- The tag of the variant with the given name and position. -/
def Tagging.IsTag (τ : Tagging) (name : String) (position : Nat) (tag : Json) : Prop :=
  tag = .string name ∨ τ = .held ∧ tag = .number (.integer position)

/-- **A tagged record.** -/
def IsTagged (τ : Tagging) (name : String) (position : Nat) (fields : List FieldForm) (v : Json) :
    Prop :=
  (∃ members, v = .object members ∧
      (∃ tag, ("type", tag) ∈ members ∧ τ.IsTag name position tag) ∧ ByName members fields) ∨
    ∃ tag items, v = .array (tag :: items) ∧
      τ ≠ .named ∧ τ.IsTag name position tag ∧ InOrder items fields

/-! ## The grammar -/

def spanFields (s : Span) : List FieldForm :=
  [.required "m" (IsSize s.start), .required "n" (IsSize s.stop)]

/-- Where a node was written, at offset zero if nothing is said. -/
def spanField (s : Span) : FieldForm := ⟨"span", IsRecord (spanFields s), s = ⟨0, 0⟩⟩

def Path.fieldForms (p : Path) : List FieldForm :=
  [.required "parts" (IsList (p.segments.map IsString)), spanField p.span]

def TextNode.fieldForms (t : TextNode) : List FieldForm :=
  [.required "chars" (IsString t.chars), spanField t.span]

/-- A value with its span: a comment or a literal. -/
def valueFields (form : Json → Prop) (s : Span) : List FieldForm :=
  [.required "value" form, spanField s]

mutual

def Expr.Form (τ : Tagging) : Expr → Json → Prop
  | .path p => IsTagged τ "PathExpression" 0 p.fieldForms
  | .sub call => IsTagged τ "SubExpression" 1 (call.fieldForms τ.below)
  | .string value s => IsTagged τ "StringLiteral" 2 (valueFields (IsString value) s)
  | .number value s => IsTagged τ "NumberLiteral" 3 (valueFields (IsNumber value) s)
  | .boolean value s => IsTagged τ "BooleanLiteral" 4 (valueFields (IsBoolean value) s)

def Call.fieldForms (τ : Tagging) : Call → List FieldForm
  | ⟨callee, params, hash, s⟩ => [
      .required "path" (IsRecord callee.fieldForms),
      ⟨"params", IsList (exprForms τ params), params = []⟩,
      ⟨"hash", IsNullable (hashForm? τ hash), hash = none⟩,
      spanField s]

def Hash.fieldForms (τ : Tagging) : Hash → List FieldForm
  | ⟨pairs, s⟩ => [.required "pairs" (IsList (pairForms τ pairs)), spanField s]

def Pair.fieldForms (τ : Tagging) : Pair → List FieldForm
  | ⟨key, value, s⟩ =>
    [.required "key" (IsString key), .required "value" (value.Form τ), spanField s]

def exprForms (τ : Tagging) : List Expr → List (Json → Prop)
  | [] => []
  | e :: es => e.Form τ :: exprForms τ es

def hashForm? (τ : Tagging) : Option Hash → Option (Json → Prop)
  | none => none
  | some hash => some (IsRecord (hash.fieldForms τ))

def pairForms (τ : Tagging) : List Pair → List (Json → Prop)
  | [] => []
  | p :: ps => IsRecord (p.fieldForms τ) :: pairForms τ ps

end

def Part.Form (τ : Tagging) : Part → Json → Prop
  | .text t => IsTagged τ "TextNode" 0 t.fieldForms
  | .path p => IsTagged τ "PathExpression" 1 p.fieldForms
  | .sub call => IsTagged τ "SubExpression" 2 (call.fieldForms τ.below)

def Attribute.fieldForms (τ : Tagging) (a : Attribute) : List FieldForm := [
  .required "name" (IsString a.name),
  .required "value" (IsList (a.value.map (Part.Form τ))),
  ⟨"quoted", IsBoolean a.quoted, a.quoted = true⟩,
  spanField a.span]

def Mustache.fieldForms (τ : Tagging) (m : Mustache) : List FieldForm := [
  .required "sexpr" (IsRecord (m.call.fieldForms τ)),
  ⟨"escaped", IsBoolean m.escaped, m.escaped = true⟩,
  spanField m.span]

/-- The attributes of a tag, none if nothing is said. -/
def attributesField (τ : Tagging) (attributes : List Attribute) : FieldForm :=
  ⟨"attributes", IsList (attributes.map fun a => IsRecord (a.fieldForms τ)), attributes = []⟩

mutual

def Statement.Form (τ : Tagging) : Statement → Json → Prop
  | .text t => IsTagged τ "TextNode" 0 t.fieldForms
  | .comment c => IsTagged τ "CommentStatement" 1 (valueFields (IsString c.value) c.span)
  | .element e => IsTagged τ "ElementNode" 2 (e.fieldForms τ.below)
  | .mustache m => IsTagged τ "MustacheStatement" 3 (m.fieldForms τ.below)
  | .block b => IsTagged τ "BlockStatement" 4 (b.fieldForms τ.below)
  | .component c => IsTagged τ "ComponentNode" 5 (c.fieldForms τ.below)

def Element.fieldForms (τ : Tagging) : Element → List FieldForm
  | ⟨tag, attributes, helpers, children, s⟩ => [
      .required "tag" (IsString tag),
      attributesField τ attributes,
      ⟨"helpers", IsList (helpers.map fun call => IsRecord (call.fieldForms τ)), helpers = []⟩,
      ⟨"children", IsList (statementForms τ children), children = []⟩,
      spanField s]

def Block.fieldForms (τ : Tagging) : Block → List FieldForm
  | ⟨call, body, inverse, s⟩ => [
      .required "sexpr" (IsRecord (call.fieldForms τ)),
      .required "program" (IsRecord (body.fieldForms τ)),
      ⟨"inverse", IsNullable (fragmentForm? τ inverse), inverse = none⟩,
      spanField s]

def Component.fieldForms (τ : Tagging) : Component → List FieldForm
  | ⟨tag, attributes, body, s⟩ => [
      .required "tag" (IsString tag),
      attributesField τ attributes,
      ⟨"program", IsRecord (body.fieldForms τ), body = ⟨[], [], ⟨0, 0⟩⟩⟩,
      spanField s]

def Fragment.fieldForms (τ : Tagging) : Fragment → List FieldForm
  | ⟨body, blockParams, s⟩ => [
      .required "body" (IsList (statementForms τ body)),
      ⟨"blockParams", IsList (blockParams.map IsString), blockParams = []⟩,
      spanField s]

def fragmentForm? (τ : Tagging) : Option Fragment → Option (Json → Prop)
  | none => none
  | some f => some (IsRecord (f.fieldForms τ))

def statementForms (τ : Tagging) : List Statement → List (Json → Prop)
  | [] => []
  | s :: rest => s.Form τ :: statementForms τ rest

end

def fieldForms (τ : Tagging) (t : Template) : List FieldForm :=
  [⟨"source", IsNullable (t.source.map IsString), t.source = none⟩,
    .required "program" (IsRecord (t.root.fieldForms τ))]

/-- **The JSON values that stand for a template.** -/
def EncodedBy (τ : Tagging) (t : Template) (v : Json) : Prop := IsRecord (t.fieldForms τ) v

/-! ### Lists -/

theorem exprForms_eq_map (τ : Tagging) (es : List Expr) :
    exprForms τ es = es.map (Expr.Form τ) := by
  induction es with
  | nil => rw [exprForms, List.map_nil]
  | cons e es ih => rw [exprForms, List.map_cons, ih]

theorem pairForms_eq_map (τ : Tagging) (ps : List Pair) :
    pairForms τ ps = ps.map fun p => IsRecord (p.fieldForms τ) := by
  induction ps with
  | nil => rw [pairForms, List.map_nil]
  | cons p ps ih => rw [pairForms, List.map_cons, ih]

theorem hashForm?_eq_map (τ : Tagging) (hash : Option Hash) :
    hashForm? τ hash = hash.map fun h => IsRecord (h.fieldForms τ) := by
  cases hash <;> rw [hashForm?] <;> rfl

theorem statementForms_eq_map (τ : Tagging) (statements : List Statement) :
    statementForms τ statements = statements.map (Statement.Form τ) := by
  induction statements with
  | nil => rw [statementForms, List.map_nil]
  | cons s rest ih => rw [statementForms, List.map_cons, ih]

theorem fragmentForm?_eq_map (τ : Tagging) (f : Option Fragment) :
    fragmentForm? τ f = f.map fun f => IsRecord (f.fieldForms τ) := by
  cases f <;> rw [fragmentForm?] <;> rfl

/-! ## The tables -/

/-- The fields of a record. -/
def Kind.fieldForms (τ : Tagging) : (kind : Kind) → kind.Carrier → List FieldForm
  | .span, s => spanFields s
  | .path, p => Path.fieldForms p
  | .call, c => Call.fieldForms τ c
  | .hash, h => Hash.fieldForms τ h
  | .pair, p => Pair.fieldForms τ p
  | .text, t => TextNode.fieldForms t
  | .comment, c => valueFields (IsString (Comment.value c)) (Comment.span c)
  | .string, (value, s) => valueFields (IsString value) s
  | .number, (value, s) => valueFields (IsNumber value) s
  | .boolean, (value, s) => valueFields (IsBoolean value) s
  | .attribute, a => Attribute.fieldForms τ a
  | .mustache, m => Mustache.fieldForms τ m
  | .element, e => Element.fieldForms τ e
  | .block, b => Block.fieldForms τ b
  | .component, c => Component.fieldForms τ c
  | .fragment, f => Fragment.fieldForms τ f
  | .template, t => Template.fieldForms τ t

/-- The values that stand for a tagged record. -/
def Union.Form (τ : Tagging) : (union : Union) → union.Carrier → Json → Prop
  | .expr, e => Expr.Form τ e
  | .part, p => Part.Form τ p
  | .statement, s => Statement.Form τ s

/-- The values that stand for a single value. -/
def Base.Form (τ : Tagging) : (base : Base) → base.Carrier → Json → Prop
  | .string, s => IsString s
  | .boolean, b => IsBoolean b
  | .size, n => IsSize n
  | .number, x => IsNumber x
  | .record kind, x => IsRecord (kind.fieldForms τ x)
  | .union u, x => u.Form τ x

/-- The values that stand for what a field holds. -/
def FieldType.Form (τ : Tagging) : (type : FieldType) → type.Carrier → Json → Prop
  | .one base, x => base.Form τ x
  | .optional base, x => IsNullable (Option.map (base.Form τ) x)
  | .list base, xs => IsList (List.map (base.Form τ) xs)

/-- A field of a table, with what it holds. -/
def Field.fieldForm (τ : Tagging) (f : Field) (x : f.type.Carrier) : FieldForm :=
  ⟨f.name, f.type.Form τ x, f.default.elim False (x = ·)⟩

/-- The fields of a table, with what they hold. -/
def valueForms (τ : Tagging) : (fields : List Field) → Values fields → List FieldForm
  | [], _ => []
  | f :: fields, (x, values) => f.fieldForm τ x :: valueForms τ fields values

/-- **The table of each kind has the fields of the grammar.** -/
theorem fieldForms_build (τ : Tagging) (kind : Kind) (values : Values kind.fields) :
    kind.fieldForms τ (kind.build values) = valueForms τ kind.fields values := by
  cases kind with
  | call =>
    change Path × List Expr × Option Hash × Span × Unit at values
    obtain ⟨callee, params, hash, s, ⟨⟩⟩ := values
    change (Call.mk callee params hash s).fieldForms τ = _
    rw [Call.fieldForms, exprForms_eq_map, hashForm?_eq_map]
    rfl
  | hash =>
    change List Pair × Span × Unit at values
    obtain ⟨pairs, s, ⟨⟩⟩ := values
    change (Hash.mk pairs s).fieldForms τ = _
    rw [Hash.fieldForms, pairForms_eq_map]
    rfl
  | pair =>
    change String × Expr × Span × Unit at values
    obtain ⟨key, value, s, ⟨⟩⟩ := values
    change (Pair.mk key value s).fieldForms τ = _
    rw [Pair.fieldForms]
    rfl
  | element =>
    change String × List Attribute × List Call × List Statement × Span × Unit at values
    obtain ⟨tag, attributes, helpers, children, s, ⟨⟩⟩ := values
    change (Element.mk tag attributes helpers children s).fieldForms τ = _
    rw [Element.fieldForms, statementForms_eq_map]
    rfl
  | block =>
    change Call × Fragment × Option Fragment × Span × Unit at values
    obtain ⟨call, body, inverse, s, ⟨⟩⟩ := values
    change (Block.mk call body inverse s).fieldForms τ = _
    rw [Block.fieldForms, fragmentForm?_eq_map]
    rfl
  | component =>
    change String × List Attribute × Fragment × Span × Unit at values
    obtain ⟨tag, attributes, body, s, ⟨⟩⟩ := values
    change (Component.mk tag attributes body s).fieldForms τ = _
    rw [Component.fieldForms]
    rfl
  | fragment =>
    change List Statement × List String × Span × Unit at values
    obtain ⟨body, blockParams, s, ⟨⟩⟩ := values
    change (Fragment.mk body blockParams s).fieldForms τ = _
    rw [Fragment.fieldForms, statementForms_eq_map]
    rfl
  | _ => rfl

/-- Every node is the record of its fields. -/
theorem exists_build : (kind : Kind) → (x : kind.Carrier) → ∃ values, kind.build values = x
  | .span, ⟨m, n⟩ => ⟨(m, n, ()), rfl⟩
  | .path, ⟨segments, s⟩ => ⟨(segments, s, ()), rfl⟩
  | .call, ⟨callee, params, hash, s⟩ => ⟨(callee, params, hash, s, ()), rfl⟩
  | .hash, ⟨pairs, s⟩ => ⟨(pairs, s, ()), rfl⟩
  | .pair, ⟨key, value, s⟩ => ⟨(key, value, s, ()), rfl⟩
  | .text, ⟨chars, s⟩ => ⟨(chars, s, ()), rfl⟩
  | .comment, ⟨value, s⟩ => ⟨(value, s, ()), rfl⟩
  | .string, (value, s) => ⟨(value, s, ()), rfl⟩
  | .number, (value, s) => ⟨(value, s, ()), rfl⟩
  | .boolean, (value, s) => ⟨(value, s, ()), rfl⟩
  | .attribute, ⟨name, value, quoted, s⟩ => ⟨(name, value, quoted, s, ()), rfl⟩
  | .mustache, ⟨call, escaped, s⟩ => ⟨(call, escaped, s, ()), rfl⟩
  | .element, ⟨tag, attributes, helpers, children, s⟩ =>
    ⟨(tag, attributes, helpers, children, s, ()), rfl⟩
  | .block, ⟨call, body, inverse, s⟩ => ⟨(call, body, inverse, s, ()), rfl⟩
  | .component, ⟨tag, attributes, body, s⟩ => ⟨(tag, attributes, body, s, ()), rfl⟩
  | .fragment, ⟨body, blockParams, s⟩ => ⟨(body, blockParams, s, ()), rfl⟩
  | .template, ⟨source, root⟩ => ⟨(source, root, ()), rfl⟩

/-- **What holds of the fields of a table, whatever they hold, holds of the fields of the node.** -/
theorem exists_build_iff {τ : Tagging} {kind : Kind} {P : List FieldForm → Prop}
    {x : kind.Carrier} :
    (∃ values, P (valueForms τ kind.fields values) ∧ kind.build values = x) ↔
      P (kind.fieldForms τ x) := by
  constructor
  · rintro ⟨values, h, rfl⟩
    rwa [fieldForms_build]
  · intro h
    obtain ⟨values, rfl⟩ := exists_build kind x
    exact ⟨values, by rwa [← fieldForms_build], rfl⟩

/-- **The table of each union has the variants of the grammar**, each with its name and position. -/
theorem Union.form_iff {τ : Tagging} {union : Union} {x : union.Carrier} {v : Json} :
    union.Form τ x v ↔
      ∃ position variant y, union.variants[position]? = some variant ∧ variant.inject y = x ∧
        IsTagged τ variant.name position (variant.kind.fieldForms τ.below y) v := by
  constructor
  · intro h
    cases union with
    | expr =>
      cases x with
      | path p => exact ⟨0, Union.expr.variants[0], p, rfl, rfl, h⟩
      | sub call => exact ⟨1, Union.expr.variants[1], call, rfl, rfl, h⟩
      | string value s => exact ⟨2, Union.expr.variants[2], (value, s), rfl, rfl, h⟩
      | number value s => exact ⟨3, Union.expr.variants[3], (value, s), rfl, rfl, h⟩
      | boolean value s => exact ⟨4, Union.expr.variants[4], (value, s), rfl, rfl, h⟩
    | part =>
      cases x with
      | text t => exact ⟨0, Union.part.variants[0], t, rfl, rfl, h⟩
      | path p => exact ⟨1, Union.part.variants[1], p, rfl, rfl, h⟩
      | sub call => exact ⟨2, Union.part.variants[2], call, rfl, rfl, h⟩
    | statement =>
      cases x with
      | text t => exact ⟨0, Union.statement.variants[0], t, rfl, rfl, h⟩
      | comment c => exact ⟨1, Union.statement.variants[1], c, rfl, rfl, h⟩
      | element e => exact ⟨2, Union.statement.variants[2], e, rfl, rfl, h⟩
      | mustache m => exact ⟨3, Union.statement.variants[3], m, rfl, rfl, h⟩
      | block b => exact ⟨4, Union.statement.variants[4], b, rfl, rfl, h⟩
      | component c => exact ⟨5, Union.statement.variants[5], c, rfl, rfl, h⟩
  · rintro ⟨position, variant, y, hv, rfl, h⟩
    cases union with
    | expr =>
      rcases position with _ | _ | _ | _ | _ | position <;> cases hv <;> exact h
    | part =>
      rcases position with _ | _ | _ | position <;> cases hv <;> exact h
    | statement =>
      rcases position with _ | _ | _ | _ | _ | _ | position <;> cases hv <;> exact h

end Hydration.Template
