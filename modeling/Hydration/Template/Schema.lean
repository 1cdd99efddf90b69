import Hydration.Template.Basic

/-!
# Template/Schema — the shape of a template document

A template tree comes as a JSON document. Which member holds what is a table: each *kind* of record
has its fields in order, with a type and, if it may be left out, a default; each *union* has its
variants, told apart by the member `type`. `Carrier` says which Lean type a schema type stands for,
and `Kind.build` and `Variant.inject` make the tree from what was read.
-/

namespace Hydration.Template

/-! ## Types -/

/-- **The kinds of records.** -/
inductive Kind where
  | span | path | call | hash | pair
  | text | comment | string | number | boolean
  | attribute | mustache | element | block | component
  | fragment | template
deriving DecidableEq, Repr

/-- **The kinds of tagged records.** -/
inductive Union where
  | expr | part | statement
deriving DecidableEq, Repr

/-- A type of single values. -/
inductive Base where
  | string
  | boolean
  /-- An offset of at most 64 bits. -/
  | size
  | number
  | record (kind : Kind)
  | union (union : Union)
deriving DecidableEq, Repr

/-- **A type of fields**: one value, one or null, or a list. -/
inductive FieldType where
  | one (base : Base)
  | optional (base : Base)
  | list (base : Base)
deriving DecidableEq, Repr

/-- What a record stands for. -/
def Kind.Carrier : Kind → Type
  | .span => Span
  | .path => Path
  | .call => Call
  | .hash => Hash
  | .pair => Pair
  | .text => TextNode
  | .comment => Comment
  | .string => String × Span
  | .number => Binary64 × Span
  | .boolean => Bool × Span
  | .attribute => Attribute
  | .mustache => Mustache
  | .element => Element
  | .block => Block
  | .component => Component
  | .fragment => Fragment
  | .template => Template

/-- What a tagged record stands for. -/
def Union.Carrier : Union → Type
  | .expr => Expr
  | .part => Part
  | .statement => Statement

/-- What a single value stands for. -/
def Base.Carrier : Base → Type
  | .string => String
  | .boolean => Bool
  | .size => Nat
  | .number => Binary64
  | .record k => k.Carrier
  | .union u => u.Carrier

/-- What a field holds. -/
def FieldType.Carrier : FieldType → Type
  | .one base => base.Carrier
  | .optional base => Option base.Carrier
  | .list base => List base.Carrier

/-! ## Records -/

/-- **A field of a record**: its name, its type, and what it holds when it is left out, if it may
be. -/
structure Field where
  name : String
  type : FieldType
  default : Option type.Carrier

namespace Field

/-- A field that must be there. -/
def required (name : String) (type : FieldType) : Field := ⟨name, type, none⟩

/-- A field that may be left out. -/
def defaulted (name : String) (type : FieldType) (value : type.Carrier) : Field :=
  ⟨name, type, some value⟩

/-- A list that is empty when it is left out. -/
def listed (name : String) (base : Base) : Field := ⟨name, .list base, some ([] : List base.Carrier)⟩

/-- A value that is absent when it is left out, or null. -/
def nullable (name : String) (base : Base) : Field :=
  ⟨name, .optional base, some (none : Option base.Carrier)⟩

/-- Where the record was written. -/
def span : Field := defaulted "span" (.one (.record .span)) ({} : Span)

end Field

/-- **The fields of each kind of record**, in order. -/
def Kind.fields : Kind → List Field
  | .span => [.required "m" (.one .size), .required "n" (.one .size)]
  | .path => [.required "parts" (.list .string), .span]
  | .call => [.required "path" (.one (.record .path)), .listed "params" (.union .expr),
      .nullable "hash" (.record .hash), .span]
  | .hash => [.required "pairs" (.list (.record .pair)), .span]
  | .pair => [.required "key" (.one .string), .required "value" (.one (.union .expr)), .span]
  | .text => [.required "chars" (.one .string), .span]
  | .comment => [.required "value" (.one .string), .span]
  | .string => [.required "value" (.one .string), .span]
  | .number => [.required "value" (.one .number), .span]
  | .boolean => [.required "value" (.one .boolean), .span]
  | .attribute => [.required "name" (.one .string), .required "value" (.list (.union .part)),
      .defaulted "quoted" (.one .boolean) true, .span]
  | .mustache => [.required "sexpr" (.one (.record .call)),
      .defaulted "escaped" (.one .boolean) true, .span]
  | .element => [.required "tag" (.one .string), .listed "attributes" (.record .attribute),
      .listed "helpers" (.record .call), .listed "children" (.union .statement), .span]
  | .block => [.required "sexpr" (.one (.record .call)), .required "program" (.one (.record .fragment)),
      .nullable "inverse" (.record .fragment), .span]
  | .component => [.required "tag" (.one .string), .listed "attributes" (.record .attribute),
      .defaulted "program" (.one (.record .fragment)) Fragment.empty, .span]
  | .fragment => [.required "body" (.list (.union .statement)), .listed "blockParams" .string, .span]
  | .template => [.nullable "source" .string, .required "program" (.one (.record .fragment))]

/-- **A value for each field of a list.** -/
def Values : List Field → Type
  | [] => Unit
  | field :: fields => field.type.Carrier × Values fields

/-- **The record with the given fields.** -/
def Kind.build : (kind : Kind) → Values kind.fields → kind.Carrier
  | .span, (m, n, ()) => Span.mk m n
  | .path, (segments, s, ()) => Path.mk segments s
  | .call, (callee, params, named, s, ()) => Call.mk callee params named s
  | .hash, (pairs, s, ()) => Hash.mk pairs s
  | .pair, (key, value, s, ()) => Pair.mk key value s
  | .text, (chars, s, ()) => TextNode.mk chars s
  | .comment, (value, s, ()) => Comment.mk value s
  | .string, (value, s, ()) => (value, s)
  | .number, (value, s, ()) => (value, s)
  | .boolean, (value, s, ()) => (value, s)
  | .attribute, (name, value, quoted, s, ()) => Attribute.mk name value quoted s
  | .mustache, (called, escaped, s, ()) => Mustache.mk called escaped s
  | .element, (tag, attributes, helpers, children, s, ()) =>
    Element.mk tag attributes helpers children s
  | .block, (called, body, inverse, s, ()) => Block.mk called body inverse s
  | .component, (tag, attributes, body, s, ()) => Component.mk tag attributes body s
  | .fragment, (body, params, s, ()) => Fragment.mk body params s
  | .template, (source, root, ()) => Template.mk source root

/-! ## Unions -/

/-- **A variant of a union**: the tag that names it, its record, and its place in the tree. -/
structure Variant (union : Union) where
  name : String
  kind : Kind
  inject : kind.Carrier → union.Carrier

/-- **The variants of each union**, in order. -/
def Union.variants : (union : Union) → List (Variant union)
  | .expr => [
      ⟨"PathExpression", .path, Expr.path⟩,
      ⟨"SubExpression", .call, Expr.sub⟩,
      ⟨"StringLiteral", .string, fun (value, span) => Expr.string value span⟩,
      ⟨"NumberLiteral", .number, fun (value, span) => Expr.number value span⟩,
      ⟨"BooleanLiteral", .boolean, fun (value, span) => Expr.boolean value span⟩]
  | .part => [
      ⟨"TextNode", .text, Part.text⟩,
      ⟨"PathExpression", .path, Part.path⟩,
      ⟨"SubExpression", .call, Part.sub⟩]
  | .statement => [
      ⟨"TextNode", .text, Statement.text⟩,
      ⟨"CommentStatement", .comment, Statement.comment⟩,
      ⟨"ElementNode", .element, Statement.element⟩,
      ⟨"MustacheStatement", .mustache, Statement.mustache⟩,
      ⟨"BlockStatement", .block, Statement.block⟩,
      ⟨"ComponentNode", .component, Statement.component⟩]

/-- The names of the variants of a union, in order. -/
def Union.names (union : Union) : List String := union.variants.map Variant.name

end Hydration.Template
