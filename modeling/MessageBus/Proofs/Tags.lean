import MessageBus.Lib.Delimited
import MessageBus.Proofs.Broadcast
import MessageBus.Proofs.Operations
import MessageBus.Tags
import Mathlib.Data.List.OfFn

/-!
# What a type tag tells of its type

A tag determines the type up to the `Arc`s and `Box`es in it, which leave no trace, and up to a
derived type that is called like a primitive one. So the casts behind the by-tag lookup hold exactly
where no two types in use differ in that alone.
-/

namespace MessageBus

open Delimited

namespace DeriveInput

variable {ast : DeriveInput}

/-- What the loop appends for `n` type parameters. -/
def holes : Bool → ℕ → List Char
  | _, 0 => []
  | needClose, n + 1 => (if needClose then ',' else '<') :: '\x7b' :: '\x7d' :: holes true n

theorem foldl_pushParam (params : List GenericParam) (s : String × Bool) :
    (params.foldl pushParam s).1.toList = s.1.toList ++ holes s.2 (params.count .type) ∧
      (params.foldl pushParam s).2 = (s.2 || decide (0 < params.count .type)) := by
  induction params generalizing s with
  | nil => simp [holes]
  | cons p params ih =>
    rcases s with ⟨typeName, needClose⟩
    cases p with
    | lifetime => simpa [pushParam] using ih (typeName, needClose)
    | type => cases needClose <;> simp [pushParam, ih, holes]

theorem toList_typeName : ast.typeName.toList
    = ast.name.toList ++ holes false ast.arity ++ if 0 < ast.arity then ['>'] else [] := by
  obtain ⟨h₁, h₂⟩ := foldl_pushParam ast.params (ast.name, false)
  rw [Bool.false_or] at h₂
  unfold typeName arity
  by_cases h : 0 < ast.params.count .type
  · simp [h₁, h₂, h]
  · simp [h₁, h₂, h]

theorem format_plain {name : List Char} (h : ∀ ch ∈ name, ch ≠ '\x7b') (rest : List Char)
    (values : List TypeTag) : format (name ++ rest) values = name ++ format rest values := by
  induction name with
  | nil => rfl
  | cons c name ih =>
    have hc : c ≠ '\x7b' := h c List.mem_cons_self
    rw [List.cons_append, List.cons_append, ← ih fun ch hch => h ch (List.mem_cons_of_mem c hch)]
    exact format.eq_2 values c (name ++ rest) fun _ _ _ _ hbrace _ => hc hbrace

theorem format_holes (values : List TypeTag) : format (holes true values.length ++ ['>']) values
    = (values.map String.toList).flatMap (',' :: ·) ++ ['>'] := by
  induction values with
  | nil => simp [holes, format]
  | cons v values ih => simp [holes, format, ih]

/-- A tag is the base name, with the tags of the type arguments in angle brackets if there are
any. -/
theorem toList_typeTag_ (hname : ∀ ch ∈ ast.name.toList, ch ≠ '{') {values : List TypeTag}
    (h : values.length = ast.arity) :
    (ast.typeTag_ values).toList = ast.name.toList ++ if values.isEmpty then []
      else '<' :: (sepBy ',' (values.map String.toList) ++ ['>']) := by
  cases values with
  | nil =>
    simp [typeTag_, toList_typeName, ← h, holes]
  | cons v values =>
    have hpos : 0 < ast.arity := by
      rw [← h]
      exact Nat.succ_pos _
    simp only [typeTag_, List.isEmpty_cons, Bool.false_eq_true, if_false, String.toList_ofList,
      toList_typeName, hpos, if_true, List.append_assoc, format_plain hname]
    simp [← h, holes, format, format_holes, sepBy]

end DeriveInput

namespace Primitive

theorem mem_all (p : Primitive) : p ∈ all := by
  cases p <;> decide

theorem typeName_injective : Function.Injective typeName := by
  have : ∀ p ∈ all, ∀ q ∈ all, p.typeName = q.typeName → p = q := by decide
  exact fun p q h => this p (mem_all p) q (mem_all q) h

theorem named_typeName (p : Primitive) : named p.typeName = some p := by
  cases p <;> decide

theorem named_eq_some {name : String} {p : Primitive} (h : named name = some p) :
    p.typeName = name := by
  simpa using List.find?_some h

end Primitive

namespace Ty

variable {d : Derives}

/-- The type without `Arc` and `Box`, and with a derived type that has a primitive type's name taken
for it. -/
def bare : Ty d → Ty d
  | prim p => prim p
  | arc t => t.bare
  | box t => t.bare
  | derived c args =>
    if (d.input c).arity = 0 then
      ((Primitive.named (d.input c).name).map prim).getD (derived c args)
    else derived c fun i => (args i).bare

/-- The characters that set type arguments off. -/
def Delimiter (ch : Char) : Prop := ch ∈ ['<', '>', ',']

/-- Those of them that may follow a whole type. -/
def Closing (ch : Char) : Prop := ch ∈ ['>', ',']

instance : DecidablePred Delimiter := fun ch => inferInstanceAs (Decidable (ch ∈ _))

instance : DecidablePred Closing := fun ch => inferInstanceAs (Decidable (ch ∈ _))

theorem delimiter_of_closing (ch : Char) (h : Closing ch) : Delimiter ch :=
  List.mem_cons_of_mem _ h

theorem plain_typeName (p : Primitive) : Plain Delimiter p.typeName.toList := by
  have : Primitive.all.all fun p => p.typeName.toList.all fun ch => ch ∉ ['<', '>', ','] := by
    decide
  intro ch hch
  exact of_decide_eq_true (List.all_eq_true.1 (List.all_eq_true.1 this p p.mem_all) ch hch)

theorem plain_name (c : d.Base) : Plain Delimiter (d.input c).name.toList := fun ch hch hd => by
  have := d.plain c ch hch
  simp_all [Delimiter]

/-- The tag as a list of characters. -/
def chars (t : Ty d) : List Char := t.typeTag_.toList

theorem chars_derived (c : d.Base) (args : Fin (d.input c).arity → Ty d) :
    (derived c args).chars = (d.input c).name.toList ++ if (d.input c).arity = 0 then []
      else '<' :: (sepBy ',' ((List.ofFn args).map chars) ++ ['>']) := by
  have hname : ∀ ch ∈ (d.input c).name.toList, ch ≠ '\x7b' := fun ch hch hb => by
    simpa [hb] using d.plain c ch hch
  rw [chars, typeTag_, DeriveInput.toList_typeTag_ hname (List.length_ofFn)]
  simp [List.map_ofFn, Function.comp_def, chars]

section Injective

variable {r r' : List Char}

/-- A base name in front of what may follow a type. -/
theorem ends_args {n : ℕ} {ws : List Char} (hr : Ends Closing r) :
    Ends Delimiter ((if n = 0 then [] else '<' :: ws) ++ r) := by
  split_ifs
  · exact hr.mono delimiter_of_closing
  · exact ends_cons (by decide)

/-- A primitive type and a derived one have one tag only where they have one name. -/
theorem prim_derived {p : Primitive} {c : d.Base} {args : Fin (d.input c).arity → Ty d}
    (hr : Ends Closing r) (hr' : Ends Closing r')
    (h : (prim p : Ty d).chars ++ r = (derived c args).chars ++ r') :
    bare (prim p) = bare (derived c args) ∧ r = r' := by
  rw [chars_derived, List.append_assoc] at h
  obtain ⟨hname, hrest⟩ := plain_append_inj (plain_typeName p) (plain_name c)
    (hr.mono delimiter_of_closing) (ends_args hr') h
  by_cases hn : (d.input c).arity = 0
  · rw [if_pos hn] at hrest
    have hp : p.typeName = (d.input c).name := String.toList_inj.1 hname
    exact ⟨by simp [bare, hn, ← hp, Primitive.named_typeName], hrest⟩
  · rw [if_neg hn] at hrest
    have hlt : Closing '<' := hr '<' (by simp [hrest])
    exact absurd hlt (by decide)

theorem derived_derived {c c' : d.Base} {args : Fin (d.input c).arity → Ty d}
    {args' : Fin (d.input c').arity → Ty d} (ih : ∀ i, SetsOff Closing chars bare (args i))
    (hr : Ends Closing r) (hr' : Ends Closing r')
    (h : (derived c args).chars ++ r = (derived c' args').chars ++ r') :
    bare (derived c args) = bare (derived c' args') ∧ r = r' := by
  rw [chars_derived, chars_derived, List.append_assoc, List.append_assoc] at h
  obtain ⟨hname, hrest⟩ := plain_append_inj (plain_name c) (plain_name c') (ends_args hr)
    (ends_args hr') h
  obtain rfl : c = c' := d.distinct (String.toList_inj.1 hname)
  by_cases hn : (d.input c).arity = 0
  · have hargs : args = args' := funext fun i => absurd i.isLt (by omega)
    simp only [hn, if_true, List.nil_append] at hrest
    exact ⟨by rw [hargs], hrest⟩
  · simp only [hn, if_false, List.cons_append, List.append_assoc, List.nil_append,
      List.cons.injEq, true_and] at hrest
    obtain ⟨x, xs, hxs⟩ := List.exists_cons_of_ne_nil (l := List.ofFn args) (by simpa using hn)
    obtain ⟨y, ys, hys⟩ := List.exists_cons_of_ne_nil (l := List.ofFn args') (by simpa using hn)
    have hx : ∀ x' ∈ x :: xs, SetsOff Closing chars bare x' := by
      rw [← hxs]
      exact fun x' hx' => by
        obtain ⟨i, rfl⟩ := List.mem_ofFn.1 hx'
        exact ih i
    rw [hxs, hys] at hrest
    obtain ⟨hbare, hrest⟩ := sepBy_inj (by decide) (by decide) (by decide) hx hrest
    rw [← hxs, ← hys, List.map_ofFn, List.map_ofFn] at hbare
    refine ⟨?_, hrest⟩
    simp only [bare, hn, if_false]
    exact congrArg (derived c) (List.ofFn_inj.1 hbare)

theorem setsOff (t : Ty d) : SetsOff Closing chars bare t := by
  induction t with
  | prim p =>
    intro y r r' hr hr' h
    induction y with
    | prim q =>
      obtain ⟨hname, hrest⟩ := plain_append_inj (plain_typeName p) (plain_typeName q)
        (hr.mono delimiter_of_closing) (hr'.mono delimiter_of_closing) h
      obtain rfl := Primitive.typeName_injective (String.toList_inj.1 hname)
      exact ⟨rfl, hrest⟩
    | arc y ih => exact ih h
    | box y ih => exact ih h
    | derived c args => exact prim_derived hr hr' h
  | arc t ih => exact fun y r r' hr hr' h => ih y r r' hr hr' h
  | box t ih => exact fun y r r' hr hr' h => ih y r r' hr hr' h
  | derived c args ih =>
    intro y r r' hr hr' h
    induction y with
    | prim q =>
      obtain ⟨hbare, hrest⟩ := prim_derived hr' hr h.symm
      exact ⟨hbare.symm, hrest.symm⟩
    | arc y ih => exact ih h
    | box y ih => exact ih h
    | derived c' args' => exact derived_derived ih hr hr' h

end Injective

/-- A type has the tag of its bare form. -/
theorem typeTag_bare (t : Ty d) : t.bare.typeTag_ = t.typeTag_ := by
  induction t with
  | prim p => rfl
  | arc t ih => exact ih
  | box t ih => exact ih
  | derived c args ih =>
    by_cases hn : (d.input c).arity = 0
    · simp only [bare, hn, if_true]
      cases hp : Primitive.named (d.input c).name with
      | none => rfl
      | some p =>
        apply String.toList_inj.1
        have hc := chars_derived c args
        rw [if_pos hn, List.append_nil] at hc
        exact (congrArg String.toList (Primitive.named_eq_some hp)).trans hc.symm
    · simp only [bare, hn, if_false, typeTag_, ih]

/-- Two types have one tag exactly where they have one bare form. -/
theorem typeTag_eq_iff {t u : Ty d} : t.typeTag_ = u.typeTag_ ↔ t.bare = u.bare := by
  refine ⟨fun h => ?_, fun h => ?_⟩
  · exact (setsOff t u [] [] ends_nil ends_nil
      (by rw [List.append_nil, List.append_nil, chars, chars, h])).1
  · rw [← typeTag_bare t, h, typeTag_bare]

end Ty

theorem Receiver.acceptReq_local {id : UInt64} {m r e tid rid : TypeTag} :
    (⟨id, .localTypes m r e⟩ : Receiver).acceptReq tid (some rid) none = true
      ↔ m = tid ∧ r = rid := by
  rw [eq_comm (a := m), eq_comm (a := r)]
  by_cases hr : rid = r
  · subst hr
    simp [acceptReq]
  · simp [acceptReq, hr]

namespace LiveBus

variable {S T : Type} [TypeTagged T] {b : LiveBus S T} {id : UInt64} {types : LocalTypes T}

theorem kind_typed (h : (b.receivers id).shape = .inl types) :
    (b.receivers id).kind = .localTypes (TypeTagged.typeTag_ types.m)
      (TypeTagged.typeTag_ types.r) (TypeTagged.typeTag_ types.e) := by
  cases hr : b.receivers id with
  | typed types' wrapper closed rx =>
    rw [hr] at h
    cases h
    rfl
  | relay table wrapper inner =>
    rw [hr] at h
    cases h

theorem mem_receiversOf (tt : TypeTag) (h : (b.receivers id).shape = .inl types) :
    id ∈ b.receiversOf tt ↔ id ∈ b.ids ∧ TypeTagged.typeTag_ types.m = tt := by
  have hmem : ∀ r, r ∈ (b.inner.lookup (tt, none, none)).getD []
      ↔ r ∈ b.ids.map (fun id => (⟨id, (b.receivers id).kind⟩ : Receiver)) ∧
        ∃ ty ∈ r.iterTypes, ty.1 = tt := fun r => mem_send
  simp only [receiversOf, List.mem_map, hmem]
  constructor
  · rintro ⟨r, ⟨⟨j, hj, rfl⟩, ty, hty, rfl⟩, rfl⟩
    rw [kind_typed h] at hty
    obtain rfl := List.mem_singleton.1 hty
    exact ⟨hj, rfl⟩
  · rintro ⟨hid, rfl⟩
    exact ⟨_, ⟨⟨id, hid, rfl⟩, _, by rw [kind_typed h]; exact List.mem_singleton_self _, rfl⟩, rfl⟩

theorem mem_selectRequest (tid rid : TypeTag) (options : SendOptions)
    (h : (b.receivers id).shape = .inl types) :
    id ∈ b.selectReceivers tid options (some rid) none true
      ↔ id ∈ b.ids ∧ TypeTagged.typeTag_ types.m = tid ∧ TypeTagged.typeTag_ types.r = rid ∧
        options.passes id = true := by
  have hmem : ∀ r, r ∈ b.inner.selectReceivers tid options (some rid) none true
      ↔ r ∈ b.ids.map (fun id => (⟨id, (b.receivers id).kind⟩ : Receiver)) ∧
        r.acceptReq tid (some rid) none = true ∧ options.passes r.id = true :=
    fun r => mem_selectReceivers _ queries_of_acceptReq
  have haccept : (⟨id, (b.receivers id).kind⟩ : Receiver).acceptReq tid (some rid) none = true
      ↔ TypeTagged.typeTag_ types.m = tid ∧ TypeTagged.typeTag_ types.r = rid := by
    rw [kind_typed h]
    exact Receiver.acceptReq_local
  simp only [selectReceivers, List.mem_map, hmem]
  constructor
  · rintro ⟨r, ⟨⟨j, hj, rfl⟩, ha, hp⟩, rfl⟩
    exact ⟨hj, (haccept.1 ha).1, (haccept.1 ha).2, hp⟩
  · rintro ⟨hid, hm, hr, hp⟩
    exact ⟨_, ⟨⟨id, hid, rfl⟩, haccept.2 ⟨hm, hr⟩, hp⟩, rfl⟩

section Dispatch

variable {d : Derives} [DecidableEq d.Base] {S : Type} [TypedMessage S (Ty d)]

/-- The unwraps of `send` and `force_send` hold for every receiver found under the message's tag. -/
def SendCasts (b : LiveBus S (Ty d)) (msg : S) : Prop :=
  ∀ id ∈ b.receiversOf (Message.typeTag msg), ∀ ep, ¬ (b.receivers id).Unwraps ep msg

/-- The unwrap of `add_response_waiter` holds for every receiver a request may go to. -/
def WaiterCasts (b : LiveBus S (Ty d)) (req : S) (options : SendOptions) (resp : Ty d) : Prop :=
  ∀ id ∈ b.selectReceivers (Message.typeTag req) options (some resp.typeTag_) none true,
    (b.receivers id).ListensFor (some resp) none

theorem sendCasts_iff (b : LiveBus S (Ty d)) (msg : S) :
    b.SendCasts msg ↔ ∀ id ∈ b.ids, ∀ types, (b.receivers id).shape = .inl types →
      types.m.bare = (TypedMessage.typeId msg).bare → types.m = TypedMessage.typeId msg := by
  have htag : Message.typeTag msg = (TypedMessage.typeId msg).typeTag_ :=
    TypedMessage.typeTag_eq msg
  constructor
  · intro h id hid types hsh hbare
    by_contra hne
    have hmem : id ∈ b.receiversOf (Message.typeTag msg) :=
      (mem_receiversOf _ hsh).2 ⟨hid, (Ty.typeTag_eq_iff.2 hbare).trans htag.symm⟩
    refine h id hmem .send ?_
    cases hr : b.receivers id with
    | typed types' wrapper closed rx =>
      rw [hr] at hsh
      cases hsh
      exact ⟨by simp [BusReceiver.isM, LocalTypes.castSendTyped, hne], by decide⟩
    | relay table wrapper inner =>
      rw [hr] at hsh
      cases hsh
  · intro h id hmem ep hu
    cases hr : b.receivers id with
    | typed types wrapper closed rx =>
      have hsh : (b.receivers id).shape = .inl types := by rw [hr]; rfl
      obtain ⟨hid, hm⟩ := (mem_receiversOf _ hsh).1 hmem
      have heq := h id hid types hsh (Ty.typeTag_eq_iff.1 (hm.trans htag))
      rw [hr] at hu
      simpa [BusReceiver.isM, LocalTypes.castSendTyped, heq] using hu.1
    | relay table wrapper inner =>
      rw [hr] at hu
      exact hu

omit [DecidableEq d.Base] in
theorem waiterCasts_iff (b : LiveBus S (Ty d)) (req : S) (options : SendOptions) (resp : Ty d) :
    b.WaiterCasts req options resp ↔ ∀ id ∈ b.ids, ∀ types, (b.receivers id).shape = .inl types →
      options.passes id = true → types.m.bare = (TypedMessage.typeId req).bare →
      types.r.bare = resp.bare → types.r = resp := by
  have htag : Message.typeTag req = (TypedMessage.typeId req).typeTag_ :=
    TypedMessage.typeTag_eq req
  constructor
  · intro h id hid types hsh hp hm hr
    have hmem := (mem_selectRequest (Message.typeTag req) resp.typeTag_ options hsh).2
      ⟨hid, (Ty.typeTag_eq_iff.2 hm).trans htag.symm, Ty.typeTag_eq_iff.2 hr, hp⟩
    have hl := h id hmem
    cases hb : b.receivers id with
    | typed types' wrapper closed rx =>
      rw [hb] at hsh hl
      cases hsh
      exact hl.1 resp rfl
    | relay table wrapper inner =>
      rw [hb] at hsh
      cases hsh
  · intro h id hmem
    cases hb : b.receivers id with
    | typed types wrapper closed rx =>
      have hsh : (b.receivers id).shape = .inl types := by rw [hb]; rfl
      obtain ⟨hid, hm, hr, hp⟩ := (mem_selectRequest _ _ _ hsh).1 hmem
      have heq := h id hid types hsh hp (Ty.typeTag_eq_iff.1 (hm.trans htag))
        (Ty.typeTag_eq_iff.1 hr)
      exact ⟨fun x hx => heq.trans (Option.some.inj hx), nofun⟩
    | relay table wrapper inner => rfl

/-- A tag stands for one type, and no cast behind a lookup by tag fails, exactly where the types in
use differ in more than what their bare forms leave out. -/
theorem dispatch_sound_iff :
    (∀ t u : Ty d, (t.typeTag_ = u.typeTag_ → t = u) ↔ (t.bare = u.bare → t = u)) ∧
      (∀ (b : LiveBus S (Ty d)) (msg : S), b.SendCasts msg
        ↔ ∀ id ∈ b.ids, ∀ types, (b.receivers id).shape = .inl types →
          types.m.bare = (TypedMessage.typeId msg).bare → types.m = TypedMessage.typeId msg) ∧
      ∀ (b : LiveBus S (Ty d)) (req : S) options resp, b.WaiterCasts req options resp
        ↔ ∀ id ∈ b.ids, ∀ types, (b.receivers id).shape = .inl types →
          options.passes id = true → types.m.bare = (TypedMessage.typeId req).bare →
          types.r.bare = resp.bare → types.r = resp :=
  ⟨fun t u => by rw [Ty.typeTag_eq_iff], sendCasts_iff, waiterCasts_iff⟩

end Dispatch

end LiveBus

/-- A program whose one derived type is `Msg<F>` in the namespace `api`. -/
def Derives.msg : Derives where
  Base := Unit
  input _ := ⟨"Msg", none, some "api", [.type]⟩
  distinct _ _ _ := rfl
  plain _ := List.forall_iff_forall_mem.1 (by decide)

instance : DecidableEq Derives.msg.Base := inferInstanceAs (DecidableEq Unit)

namespace Ty

/-- `Msg<i32>`. -/
def msg : Ty .msg := derived () fun _ => prim .i32

/-- `Msg<Arc<i32>>`. -/
def msgArc : Ty .msg := derived () fun _ => arc (prim .i32)

end Ty

/-- A message of the type `Msg<i32>` or `Msg<Arc<i32>>`. -/
structure Msg where
  shared : Bool
  value : ℤ
  deriving DecidableEq

def Msg.type (m : Msg) : Ty .msg := if m.shared then .msgArc else .msg

instance : CloneMessage Msg where
  typeTag m := m.type.typeTag_
  isShared _ := false
  tryClone _ := true

instance : TypedMessage Msg (Ty .msg) where
  typeId := Msg.type
  typeTag_eq _ := rfl

namespace LiveBus

/-- A bus with a local receiver of `Msg<i32>`, of limit 1. -/
def msg : LiveBus Msg (Ty .msg) :=
  one (.typed ⟨.msg, .prim .unit, .prim .unit⟩ ⟨.empty, .new 1 true⟩ false [])

/-- The test's tag; and a message that is looked up by it and is not of the receiver's type. -/
theorem arc_leaves_no_trace :
    Ty.msg.typeTag_ = "api::Msg<i32>" ∧
    (¬ ∀ t u : Ty .msg, t.typeTag_ = u.typeTag_ → t = u) ∧
    (msg.trySend ⟨true, 7⟩).done = .panicked := by
  refine ⟨by decide, fun h => ?_, by rfl⟩
  exact absurd (h .msg .msgArc (Ty.typeTag_eq_iff.2 rfl)) (by decide)

end LiveBus

end MessageBus
