import MessageBus.Operations

/-!
# Type tags

`type_tag_part` of the derive macro (`src/lib.rs` of the derive crate) and the `TypeTagged`
implementations of `src/envelop.rs`, over the types these give a tag to.
-/

namespace MessageBus

/-- The types of `gen_impls!`. -/
inductive Primitive where
  | unit
  | bool
  | i8
  | u8
  | i16
  | u16
  | i32
  | u32
  | i64
  | u64
  | i128
  | u128
  | f32
  | f64
  | string
  deriving DecidableEq, Repr

namespace Primitive

/-- `core::any::type_name`. -/
def typeName : Primitive → TypeTag
  | unit => "()"
  | bool => "bool"
  | i8 => "i8"
  | u8 => "u8"
  | i16 => "i16"
  | u16 => "u16"
  | i32 => "i32"
  | u32 => "u32"
  | i64 => "i64"
  | u64 => "u64"
  | i128 => "i128"
  | u128 => "u128"
  | f32 => "f32"
  | f64 => "f64"
  | string => "alloc::string::String"

def all : List Primitive :=
  [unit, bool, i8, u8, i16, u16, i32, u32, i64, u64, i128, u128, f32, f64, string]

/-- The primitive type of a name, if there is one. -/
def named (name : String) : Option Primitive := all.find? fun p => p.typeName == name

end Primitive

/-- A const parameter is `unimplemented!()`: a type that has one does not compile. -/
inductive GenericParam where
  | lifetime
  | type
  deriving DecidableEq, Repr

/-- What `type_tag_part` reads of a type, with its `type_tag` and `namespace` attributes. -/
structure DeriveInput where
  ident : String
  typeTag : Option String
  ns : Option String
  params : List GenericParam

namespace DeriveInput

variable (ast : DeriveInput)

def name : String :=
  match ast.typeTag, ast.ns with
  | some tt, _ => tt
  | none, some ns => ns ++ "::" ++ ast.ident
  | none, none => ast.ident

/-- A turn of the loop over the parameters, on `type_name` and `need_close`. -/
def pushParam : String × Bool → GenericParam → String × Bool
  | s, .lifetime => s
  | (typeName, false), .type => (typeName.push '<' ++ "\x7b\x7d", true)
  | (typeName, true), .type => (typeName.push ',' ++ "\x7b\x7d", true)

/-- The format string. -/
def typeName : String :=
  let s := ast.params.foldl pushParam (ast.name, false)
  if s.2 then s.1.push '>' else s.1

/-- The number of `type_values`. -/
def arity : ℕ := ast.params.count .type

/-- `format!` on a string whose only braces are placeholders. -/
def format : List Char → List TypeTag → List Char
  | '\x7b' :: '\x7d' :: rest, v :: values => v.toList ++ format rest values
  | c :: rest, values => c :: format rest values
  | [], _ => []

/-- `type_tag_`, given those of the type parameters. -/
def typeTag_ (values : List TypeTag) : TypeTag :=
  if values.isEmpty then ast.typeName else String.ofList (format ast.typeName.toList values)

end DeriveInput

/-- The types of a program that derive their tag: their base names are distinct, and free of the
characters that the macro puts in. -/
structure Derives where
  Base : Type
  input : Base → DeriveInput
  distinct : Function.Injective fun c => (input c).name
  plain : ∀ c, ∀ ch ∈ (input c).name.toList, ch ∉ ['<', '>', ',', '\x7b', '\x7d']

/-- The types built of these. -/
inductive Ty (d : Derives) where
  | prim (p : Primitive)
  | arc (t : Ty d)
  | box (t : Ty d)
  | derived (c : d.Base) (args : Fin (d.input c).arity → Ty d)

namespace Ty

variable {d : Derives}

/-- An `Arc` and a `Box` have the tag of what they hold. -/
def typeTag_ : Ty d → TypeTag
  | prim p => p.typeName
  | arc t => t.typeTag_
  | box t => t.typeTag_
  | derived c args => (d.input c).typeTag_ (List.ofFn fun i => (args i).typeTag_)

instance : TypeTagged (Ty d) := ⟨typeTag_⟩

def decEq [DecidableEq d.Base] : (t u : Ty d) → Decidable (t = u)
  | prim p, prim q => decidable_of_iff (p = q) (by simp)
  | arc t, arc u => @decidable_of_iff _ (t = u) (by simp) (decEq t u)
  | box t, box u => @decidable_of_iff _ (t = u) (by simp) (decEq t u)
  | derived c args, derived c' args' =>
    if h : c = c' then
      @decidable_of_iff _ (∀ i, args i = args' (h ▸ i)) (by subst h; simp [funext_iff])
        (@Nat.decidableForallFin _ _ fun i => decEq (args i) (args' (h ▸ i)))
    else isFalse (by simp [h])
  | prim _, arc _ | prim _, box _ | prim _, derived _ _ => isFalse nofun
  | arc _, prim _ | arc _, box _ | arc _, derived _ _ => isFalse nofun
  | box _, prim _ | box _, arc _ | box _, derived _ _ => isFalse nofun
  | derived _ _, prim _ | derived _ _, arc _ | derived _ _, box _ => isFalse nofun

instance [DecidableEq d.Base] : DecidableEq (Ty d) := decEq

end Ty

end MessageBus
