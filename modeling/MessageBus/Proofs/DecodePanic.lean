import MessageBus.Proto

/-!
# Where decoding a packet panics

The decoder unwraps its type tag in three places. `Guarded` says of a packet that none of them is
reached without a tag.
-/

namespace MessageBus.ProtocolPacket

variable {S : Type} (c : Codec S) (p : ProtocolPacket)

/-- The tag is there and its flag is set. -/
def Tagged : Prop := p.header.flags.contains .typeTag = true ∧ p.header.typeTag.isSome = true

/-- The packet has its tag, or no branch that unwraps it is taken. -/
def Guarded : Prop :=
  p.Tagged ∨ (p.header.flags.contains .error = false ∧
    if p.header.flags.contains .ttAndBody = true then
      p.body = none ∨ p.header.bodyType.backend = none
    else p.header.kind ≠ .batchComplete)

instance : Decidable p.Tagged := inferInstanceAs (Decidable (_ ∧ _))

instance : Decidable p.Guarded := inferInstanceAs (Decidable (_ ∨ _ ∧ ite _ _ _))

variable {c p}

theorem tagged_iff : p.Tagged ↔ ∃ tt, p.typeTag? = some tt := by
  unfold Tagged typeTag?
  split_ifs with h
  · simp [h, Option.isSome_iff_exists]
  · simp [h]

theorem deserializeSharedMessage_ne_none {B : Type} (tt : TypeTag) (k : Backend)
    (data : List UInt8) : deserializeSharedMessage (B := B) c tt k data ≠ none := by
  unfold deserializeSharedMessage
  split_ifs
  · split <;> simp [Error.specify]
  · simp

theorem item_eq_none {body : Option S} {error : Option (Error Unit GenericError)} :
    p.item c body error = none ↔ p.header.kind = .batchComplete ∧ p.typeTag? = none := by
  unfold item
  rcases p.header.kind <;> dsimp only <;> (repeat' split) <;> simp

/-- With the tag at hand neither the body nor the error can fail to come. -/
theorem bodyAndError_ne_none {tt : TypeTag} (h : p.typeTag? = some tt) :
    p.bodyAndError c ≠ none := by
  unfold bodyAndError genericDeserialize
  rw [h]
  split_ifs
  · simp
  · split
    · simp
    · have := deserializeSharedMessage_ne_none (c := c) (B := S) tt
      split <;> simp [this]
  · simp

theorem deserialize_eq_none : p.deserialize c = none ↔ p.bodyAndError c = none
    ∨ ∃ body error, p.bodyAndError c = some (.ok (body, error)) ∧ p.item c body error = none := by
  unfold deserialize
  split <;> simp_all

/-- Without a tag each branch of the flags, the body and its type has one outcome. -/
theorem bodyAndError_untagged (h : p.typeTag? = none) : p.bodyAndError c =
    if p.header.flags.contains .error = true then none
    else if p.header.flags.contains .ttAndBody = true then
      if p.body = none then some (.error (.protocolParseError "No body"))
      else if p.header.bodyType.backend = none then some (.error .unknownCodec)
      else none
    else some (.ok (none, none)) := by
  unfold bodyAndError genericDeserialize
  rw [h]
  by_cases he : p.header.flags.contains .error = true
  · rw [if_pos he, if_pos he]
  · rw [if_neg he, if_neg he]
    by_cases hb : p.header.flags.contains .ttAndBody = true
    · rw [if_pos hb, if_pos hb]
      rcases p.body with _ | data
      · simp
      · rcases p.header.bodyType.backend with _ | k <;> simp [Except.map]
    · rw [if_neg hb, if_neg hb]

/-- Decoding returns, with an item or an error, exactly on the guarded packets. -/
theorem deserialize_returns_iff (c : Codec S) (p : ProtocolPacket) :
    p.deserialize c ≠ none ↔ p.Guarded := by
  rcases htt : p.typeTag? with _ | tt
  · have hun : ¬ p.Tagged := by
      rw [tagged_iff, htt]
      exact nofun
    have hbe := bodyAndError_untagged (c := c) htt
    rw [Ne, deserialize_eq_none, hbe, Guarded, or_iff_right hun]
    simp only [item_eq_none, htt, and_true]
    split_ifs with he hb hbody hk <;> simp_all
  · have htag : p.Tagged := tagged_iff.2 ⟨tt, htt⟩
    refine iff_of_true (fun h => ?_) (.inl htag)
    rcases deserialize_eq_none.1 h with h | ⟨body, error, -, h⟩
    · exact bodyAndError_ne_none htt h
    · have := (item_eq_none.1 h).2
      rw [htt] at this
      cases this

/-- A `BatchComplete` without a tag, as a peer may send it. -/
theorem untagged_batchComplete_panics :
    ¬ ∀ (c : Codec Unit) (p : ProtocolPacket), p.deserialize c ≠ none := by
  intro h
  exact h ⟨fun _ _ => .ok [], fun _ => true, fun _ _ _ => .ok (), fun _ => ""⟩
    ⟨⟨.batchComplete, none, .argument, .none, 1⟩, none⟩ rfl

end MessageBus.ProtocolPacket
