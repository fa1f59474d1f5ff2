import MessageBus.Error
import Mathlib.Control.Bifunctor

/-!
# The conversions of errors

The tables of `map_msg` and `map_err` are those of a bifunctor, and `from_typed` is `map_msg` of the
boxing. `into_dyn` moves a handler's error to the boxed side and nothing else, so `map` never finds
one that is not boxed. `SendError::into_boxed` is the one table that does not keep the kind: it
makes `Closed` of `Full`.
-/

namespace MessageBus

section Maps

variable {M UM VM E UE VE : Type}

namespace SendError

theorem mapMsg_id (s : SendError M) : s.mapMsg id = s := by
  cases s <;> rfl

theorem mapMsg_mapMsg (f : M → UM) (g : UM → VM) (s : SendError M) :
    (s.mapMsg f).mapMsg g = s.mapMsg (g ∘ f) := by
  cases s <;> rfl

end SendError

namespace Error

theorem mapMsg_id (e : Error M E) : e.mapMsg id = e := by
  cases e with
  | sendError inner => exact congrArg sendError inner.mapMsg_id
  | _ => rfl

theorem mapMsg_mapMsg (f : M → UM) (g : UM → VM) (e : Error M E) :
    (e.mapMsg f).mapMsg g = e.mapMsg (g ∘ f) := by
  cases e with
  | sendError inner => exact congrArg sendError (inner.mapMsg_mapMsg f g)
  | _ => rfl

theorem mapErr_id (e : Error M E) : e.mapErr id = e := by
  cases e <;> rfl

theorem mapErr_mapErr (k : E → UE) (l : UE → VE) (e : Error M E) :
    (e.mapErr k).mapErr l = e.mapErr (l ∘ k) := by
  cases e <;> rfl

theorem mapErr_mapMsg (f : M → UM) (k : E → UE) (e : Error M E) :
    (e.mapMsg f).mapErr k = (e.mapErr k).mapMsg f := by
  cases e <;> rfl

instance : Bifunctor Error := ⟨fun f k e => (e.mapMsg f).mapErr k⟩

instance : LawfulBifunctor Error where
  id_bimap e := (mapErr_id _).trans (mapMsg_id e)
  bimap_bimap f f' k k' e := by
    show (((e.mapMsg f).mapErr k).mapMsg f').mapErr k' = (e.mapMsg (f' ∘ f)).mapErr (k' ∘ k)
    rw [← mapErr_mapMsg, mapMsg_mapMsg, mapErr_mapErr]

end Error

end Maps

section Kinds

variable {M UM E UE B U : Type}

/-- The variants of `Error`, with those of the `SendError` in it. -/
inductive ErrorKind where
  | closed
  | full
  | tryAgain
  | noResponse
  | noReceivers
  | addListenerError
  | messageCastError
  | notReady
  | other
  | serialization
  | otherBoxed
  | wrongMessageType
  | typeTagNotRegistered
  | unknown
  deriving DecidableEq, Repr

def SendError.kind : SendError M → ErrorKind
  | closed _ => .closed
  | full _ => .full

theorem SendError.kind_mapMsg (f : M → UM) (s : SendError M) : (s.mapMsg f).kind = s.kind := by
  cases s <;> rfl

namespace Error

def kind : Error M E → ErrorKind
  | sendError inner => inner.kind
  | tryAgain _ => .tryAgain
  | noResponse => .noResponse
  | noReceivers => .noReceivers
  | addListenerError => .addListenerError
  | messageCastError => .messageCastError
  | notReady => .notReady
  | other _ => .other
  | serialization _ => .serialization
  | otherBoxed _ => .otherBoxed
  | wrongMessageType _ => .wrongMessageType
  | typeTagNotRegistered _ => .typeTagNotRegistered
  | unknown _ => .unknown

theorem kind_mapMsg (f : M → UM) (e : Error M E) : (e.mapMsg f).kind = e.kind := by
  cases e with
  | sendError inner => exact inner.kind_mapMsg f
  | _ => rfl

theorem fromTyped_eq_mapMsg (intoBoxed : M → B) (e : Error M GenericError) :
    fromTyped intoBoxed e = e.mapMsg intoBoxed := by
  cases e with
  | sendError inner => cases inner <;> rfl
  | _ => rfl

/-- `map` panics on a handler's error that is not boxed, and on nothing else. -/
theorem map_eq_none_iff (ofDyn : DynError → U) (e : Error M E) :
    e.map ofDyn = none ↔ e.kind = .other := by
  cases e with
  | sendError inner => cases inner <;> simp [map, kind, SendError.kind]
  | _ => simp [map, kind]

variable [StdSyncSendError E]

theorem intoDyn_other (err : E) : (other err : Error M E).intoDyn = otherBoxed (.new err) := rfl

/-- A handler's error aside, `into_dyn` keeps the error, whatever `map_err` would have made of a
handler's. -/
theorem intoDyn_eq_mapErr {e : Error M E} (h : ∀ err, e ≠ other err) (k : E → GenericError) :
    e.intoDyn = e.mapErr k := by
  cases e with
  | other err => exact absurd rfl (h err)
  | _ => rfl

theorem kind_intoDyn (e : Error M E) :
    e.intoDyn.kind = if e.kind = .other then .otherBoxed else e.kind := by
  cases e with
  | sendError inner => cases inner <;> rfl
  | _ => rfl

theorem isSome_map_intoDyn (ofDyn : DynError → U) (e : Error M E) :
    (e.intoDyn.map ofDyn).isSome = true := by
  rw [Option.isSome_iff_ne_none, Ne, map_eq_none_iff, kind_intoDyn]
  split_ifs with h
  · simp
  · exact h

end Error

end Kinds

section Texts

variable {M UM E : Type} [StdSyncSendError E]

theorem SendError.display_mapMsg (f : M → UM) (s : SendError M) :
    (s.mapMsg f).display = s.display := by
  cases s <;> rfl

namespace Error

theorem display_mapMsg (f : M → UM) (e : Error M E) : (e.mapMsg f).display = e.display := by
  cases e with
  | sendError inner => exact congrArg ("Message Send Error: " ++ ·) (inner.display_mapMsg f)
  | _ => rfl

end Error

end Texts

section Lawful

variable {M E B : Type} [StdSyncSendError E]

/-- What the conversions owe an error `e`, an error `t` of a bus call and a refused send `s`, where
`box` is the boxing of messages. -/
structure LawfulConversions (box : M → B) (e : Error M E) (t : Error M GenericError)
    (s : SendError M) : Prop where
  identity : e.mapMsg id = e ∧ s.mapMsg id = s
  composition : ∀ {UM VM : Type} (f : M → UM) (g : UM → VM),
    (e.mapMsg f).mapMsg g = e.mapMsg (g ∘ f) ∧ (s.mapMsg f).mapMsg g = s.mapMsg (g ∘ f)
  commutes : ∀ {UM UE : Type} (f : M → UM) (k : E → UE),
    (e.mapMsg f).mapErr k = (e.mapErr k).mapMsg f
  fromTyped : Error.fromTyped box t = t.mapMsg box ∧ (Error.fromTyped box t).kind = t.kind
  intoBoxed : s.intoBoxed box = s.mapMsg box ∧ (s.intoBoxed box).kind = s.kind
  map : ∀ {U : Type} (ofDyn : DynError → U), (e.intoDyn.map ofDyn).isSome = true
  other : ∀ err, e = .other err → e.intoDyn = .otherBoxed (.new err)
  keeps : (∀ err, e ≠ .other err) → ∀ k, e.intoDyn = e.mapErr k
  kind : e.intoDyn.kind = if e.kind = .other then .otherBoxed else e.kind

/-- The conversions are lawful but on a `Full`, of which `into_boxed` makes a `Closed`. -/
theorem conversions_lawful_iff (box : M → B) (e : Error M E) (t : Error M GenericError)
    (s : SendError M) : LawfulConversions box e t s ↔ ∀ m, s ≠ .full m := by
  refine ⟨?_, fun hs => ?_⟩
  · rintro h m rfl
    cases h.intoBoxed.2
  · have hboxed : s.intoBoxed box = s.mapMsg box ∧ (s.intoBoxed box).kind = s.kind := by
      cases s with
      | closed m => exact ⟨rfl, rfl⟩
      | full m => exact absurd rfl (hs m)
    refine ⟨⟨e.mapMsg_id, s.mapMsg_id⟩, fun f g => ⟨e.mapMsg_mapMsg f g, s.mapMsg_mapMsg f g⟩,
      fun f k => e.mapErr_mapMsg f k, ⟨t.fromTyped_eq_mapMsg box, ?_⟩, hboxed,
      fun ofDyn => e.isSome_map_intoDyn ofDyn, ?_, fun h => Error.intoDyn_eq_mapErr h,
      e.kind_intoDyn⟩
    · rw [Error.fromTyped_eq_mapMsg, Error.kind_mapMsg]
    · rintro err rfl
      exact Error.intoDyn_other err

/-- A full queue, its message boxed, reads as a closed one. -/
theorem into_boxed_closes_full : ¬ ∀ (e t : Error Unit GenericError) (s : SendError Unit),
    LawfulConversions id e t s := by
  intro h
  cases (h .noResponse .noResponse (.full ())).intoBoxed.2

end Lawful

end MessageBus
