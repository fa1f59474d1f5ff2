import MessageBus.Proto

/-!
# The round trip of a protocol item

The encoder's packets come in three shapes: bare, with an error's text, with a message. The decoder
reads the body of each back (`bodyAndError_plain`, `_packError`, `_packMessage`); what the kind then
makes of it is the item that was encoded, but for the id of an `Init` and for an `InitFailed`.
-/

namespace MessageBus

open Utf8Lossy

variable {S : Type}

section Items

def Event.eraseErrors : Event S GenericError → Event S GenericError
  | .response mid (.error _) => .response mid (.error .noResponse)
  | .synchronized (.error _) => .synchronized (.error .noResponse)
  | .error _ => .error .noResponse
  | .initFailed _ => .initFailed .noResponse
  | ev => ev

/-- Two items agree in all but the text and tag of an error when this makes them one. -/
def ProtocolItem.eraseErrors : ProtocolItem S → ProtocolItem S
  | .event ev => .event ev.eraseErrors
  | item => item

/-- What the decoder makes of an item. -/
def ProtocolItem.arrived : ProtocolItem S → ProtocolItem S
  | .action (.init _) => .action (.init 0)
  | .event (.initFailed _) => .event .ready
  | .event (.response mid (.error err)) =>
    .event (.response mid (.error (.other ⟨"GenericError", err.display⟩)))
  | .event (.synchronized (.error err)) =>
    .event (.synchronized (.error (.other ⟨"GenericError", err.display⟩)))
  | .event (.error err) => .event (.error (.other ⟨"GenericError", err.display⟩))
  | item => item

/-- The items the format has room for. -/
def ProtocolItem.Carried : ProtocolItem S → Prop
  | .action (.init id) => id = 0
  | .event (.initFailed _) => False
  | _ => True

end Items

variable [SharedMessage S]

/-- Shared messages are registered, and their backends give each back. -/
structure Codec.Faithful (c : Codec S) : Prop where
  registered : ∀ m : S, SharedMessage.isShared m = true → c.registered (Message.typeTag m) = true
  roundTrip : ∀ k (m : S) bytes, SharedMessage.isShared m = true → c.encode k m = .ok bytes →
    c.decode k (Message.typeTag m) bytes = .ok m

namespace ProtocolItem

variable {c : Codec S}

omit [SharedMessage S] in
theorem typeTag?_pack (kind : ProtocolHeaderActionKind) (tt : TypeTag) {flags : ProtocolHeaderFlags}
    (hf : flags.contains .typeTag = true) (bodyType : BodyType) (argument : UInt64)
    (body : Option (List UInt8)) :
    (pack kind (some tt) flags bodyType argument body).typeTag? = some tt := by
  simp [ProtocolPacket.typeTag?, pack, hf, lossy_utf8Bytes]

omit [SharedMessage S] in
theorem bodyAndError_plain {p : ProtocolPacket} (he : p.header.flags.contains .error = false)
    (hb : p.header.flags.contains .ttAndBody = false) :
    p.bodyAndError c = some (.ok (none, none)) := by
  simp [ProtocolPacket.bodyAndError, he, hb]

omit [SharedMessage S] in
theorem deserialize_of_body {p : ProtocolPacket} {body : Option S}
    {error : Option (Error Unit GenericError)} (h : p.bodyAndError c = some (.ok (body, error))) :
    p.deserialize c = p.item c body error := by
  unfold ProtocolPacket.deserialize
  rw [h]

omit [SharedMessage S] in
theorem bodyAndError_packError (kind : ProtocolHeaderActionKind) {flags : ProtocolHeaderFlags}
    (ht : flags.contains .typeTag = true) (he : flags.contains .error = true) (argument : UInt64)
    (err : Error Unit GenericError) : (packError kind flags argument err).bodyAndError c
      = some (.ok (none, some (.other ⟨"GenericError", err.display⟩))) := by
  have htt : (packError kind flags argument err).typeTag? = some "GenericError" :=
    typeTag?_pack kind _ ht _ _ _
  have hflags : (packError kind flags argument err).header.flags = flags := rfl
  have hbody : (packError kind flags argument err).body = some (utf8Bytes err.display) := rfl
  simp only [ProtocolPacket.bodyAndError, htt, hflags, he, hbody, if_true, Option.map_some,
    Option.getD_some, lossy_utf8Bytes]

theorem bodyAndError_packMessage (hc : c.Faithful) {kind : ProtocolHeaderActionKind}
    {flags : ProtocolHeaderFlags} (ht : flags.contains .typeTag = true)
    (hb : flags.contains .ttAndBody = true) (he : flags.contains .error = false)
    {bodyType : BodyType} {argument : UInt64} {msg : S} {p : ProtocolPacket}
    (hp : packMessage c kind flags bodyType argument msg [] = .ok p) :
    p.header.kind = kind ∧ p.header.flags = flags ∧ p.header.argument = argument
      ∧ p.bodyAndError c = some (.ok (some msg, none)) := by
  unfold packMessage at hp
  split_ifs at hp with hsh
  unfold genericSerialize at hp
  rcases hk : bodyType.backend with _ | k
  · rw [hk] at hp
    cases hp
  · rw [hk] at hp
    dsimp only at hp
    rcases henc : c.encode k msg with text | bytes
    · rw [henc] at hp
      cases hp
    · rw [henc] at hp
      cases hp
      refine ⟨rfl, rfl, rfl, ?_⟩
      have htt := typeTag?_pack kind (Message.typeTag msg) ht bodyType argument (some bytes)
      have hdec : deserializeSharedMessage (B := S) c (Message.typeTag msg) k bytes
          = some (.ok msg) := by
        unfold deserializeSharedMessage
        rw [if_pos (hc.registered msg hsh), hc.roundTrip k msg bytes hsh henc]
      show (pack kind (some (Message.typeTag msg)) flags bodyType argument
        (some bytes)).bodyAndError c = _
      unfold ProtocolPacket.bodyAndError genericDeserialize
      rw [htt]
      simp only [pack, he, hb, hk, hdec, if_true, Bool.false_eq_true, if_false, Option.map_some,
        Except.map]

omit [SharedMessage S] in
theorem deserialize_plain (kind : ProtocolHeaderActionKind) (bodyType : BodyType)
    (argument : UInt64) : (pack kind none .empty bodyType argument none).deserialize c
      = (pack kind none .empty bodyType argument none).item c none none := by
  refine deserialize_of_body (bodyAndError_plain ?_ ?_)
  · show ProtocolHeaderFlags.contains .empty .error = false
    decide
  · show ProtocolHeaderFlags.contains .empty .ttAndBody = false
    decide

omit [SharedMessage S] in
theorem deserialize_packError (kind : ProtocolHeaderActionKind) {flags : ProtocolHeaderFlags}
    (ht : flags.contains .typeTag = true) (he : flags.contains .error = true) (argument : UInt64)
    (err : Error Unit GenericError) : (packError kind flags argument err).deserialize c
      = (packError kind flags argument err).item c none
          (some (.other ⟨"GenericError", err.display⟩)) :=
  deserialize_of_body (bodyAndError_packError kind ht he argument err)

omit [SharedMessage S] in
theorem deserialize_batchComplete (tt : TypeTag) (bodyType : BodyType) (n : UInt64) :
    (pack .batchComplete (some tt)
      ((ProtocolHeaderFlags.empty.set .typeTag true).set .argument true)
      bodyType n none).deserialize c = some (.ok (.event (.batchComplete tt n))) := by
  have hf : ((ProtocolHeaderFlags.empty.set .typeTag true).set .argument true).contains .typeTag
      = true := by decide
  rw [deserialize_of_body (bodyAndError_plain ?_ ?_), ProtocolPacket.item,
    typeTag?_pack .batchComplete tt hf bodyType n none]
  · rfl
  · show ((ProtocolHeaderFlags.empty.set .typeTag true).set .argument true).contains .error = false
    decide
  · show ((ProtocolHeaderFlags.empty.set .typeTag true).set .argument true).contains .ttAndBody
      = false
    decide

theorem deserialize_event (hc : c.Faithful) {ev : Event S GenericError} {bodyType : BodyType}
    {p : ProtocolPacket} (hs : (event ev).serialize c bodyType [] = some (.ok p)) :
    p.deserialize c = some (.ok (event ev).arrived) := by
  rcases ev with ⟨mid, err | msg⟩ | (err | _) | ⟨tt, n⟩ | err | err | _ | _ | _ | _ | _
  · cases hs
    rw [deserialize_packError _ (by decide) (by decide)]
    have harg : ((((ProtocolHeaderFlags.empty.set .argument true).set .body true).set
      .typeTag true).set .error true).contains .argument = true := by decide
    simp [ProtocolPacket.item, packError, pack, harg, arrived]
  · simp only [serialize, Option.some.injEq] at hs
    obtain ⟨hk, hf, ha, hb⟩ := bodyAndError_packMessage hc (by decide) (by decide) (by decide) hs
    rw [deserialize_of_body hb, ProtocolPacket.item, hk, hf, ha, if_pos (by decide)]
    rfl
  · cases hs
    rw [deserialize_packError _ (by decide) (by decide)]
    rfl
  · cases hs
    exact deserialize_plain _ _ _
  · cases hs
    exact deserialize_batchComplete tt bodyType n
  · cases hs
    rw [deserialize_packError _ (by decide) (by decide)]
    rfl
  · cases hs
    rw [deserialize_packError _ (by decide) (by decide)]
    rfl
  · cases hs
  · cases hs
    exact deserialize_plain _ _ _
  · cases hs
    exact deserialize_plain _ _ _
  · cases hs
    exact deserialize_plain _ _ _
  · cases hs
    exact deserialize_plain _ _ _

theorem deserialize_send (hc : c.Faithful) {mid : UInt64} {msg : S} {req : Bool}
    {bodyType : BodyType} {p : ProtocolPacket}
    (hs : (send mid msg req).serialize c bodyType [] = some (.ok p)) :
    p.deserialize c = some (.ok (.send mid msg req)) := by
  simp only [serialize, Option.some.injEq] at hs
  have hflags : ∀ b : Bool, (((ProtocolHeaderFlags.empty.set .argument b).set .body true).set
      .typeTag true).contains .typeTag = true ∧ (((ProtocolHeaderFlags.empty.set .argument b).set
      .body true).set .typeTag true).contains .ttAndBody = true ∧
      (((ProtocolHeaderFlags.empty.set .argument b).set .body true).set
      .typeTag true).contains .error = false ∧ (((ProtocolHeaderFlags.empty.set .argument b).set
      .body true).set .typeTag true).contains .argument = b := by decide
  obtain ⟨h1, h2, h3, h4⟩ := hflags req
  obtain ⟨hk, hf, ha, hb⟩ := bodyAndError_packMessage hc h1 h2 h3 hs
  rw [deserialize_of_body hb, ProtocolPacket.item, hk, hf, ha, h4]
  cases req <;> rfl

/-- What the decoder makes of an encoded item. -/
theorem deserialize_serialize (hc : c.Faithful) {x : ProtocolItem S} {bodyType : BodyType}
    {p : ProtocolPacket} (hs : x.serialize c bodyType [] = some (.ok p)) :
    p.deserialize c = some (.ok x.arrived) := by
  cases x with
  | nop =>
    cases hs
    exact deserialize_plain _ _ _
  | event ev => exact deserialize_event hc hs
  | action a =>
    cases a with
    | stats => cases hs
    | _ =>
      cases hs
      exact deserialize_plain _ _ _
  | send mid msg req => exact deserialize_send hc hs

omit [SharedMessage S] in
theorem arrived_eq_send {item : ProtocolItem S} {mid : UInt64} {msg : S} {req : Bool}
    (h : item.arrived = .send mid msg req) : item = .send mid msg req := by
  unfold arrived at h
  split at h <;> first | exact h | cases h

theorem encoded_of_serialize {mid : UInt64} {msg : S} {req : Bool} {pkt : ProtocolPacket}
    (h : (send mid msg req).serialize c .cbor [] = some (.ok pkt)) :
    SharedMessage.isShared msg = true ∧ ∃ bytes, c.encode .cbor msg = .ok bytes := by
  simp only [serialize, Option.some.injEq, packMessage] at h
  split_ifs at h with hs
  refine ⟨hs, ?_⟩
  rcases he : c.encode .cbor msg with text | bytes
  · simp [genericSerialize, BodyType.backend, he, Except.mapError, Except.map] at h
  · exact ⟨bytes, rfl⟩

theorem serialize_of_encoded {msg : S} (hs : SharedMessage.isShared msg = true)
    {bytes : List UInt8} (he : c.encode .cbor msg = .ok bytes) (mid : UInt64) (req : Bool) :
    ∃ pkt, (send mid msg req).serialize c .cbor [] = some (.ok pkt) := by
  simp [serialize, packMessage, hs, genericSerialize, BodyType.backend,
    he, Except.mapError, Except.map]

omit [SharedMessage S] in
theorem arrived_eraseErrors_iff (x : ProtocolItem S) :
    x.arrived.eraseErrors = x.eraseErrors ↔ x.Carried := by
  rcases x with _ | ev | a | _
  · exact iff_of_true rfl trivial
  · rcases ev with ⟨_, _ | _⟩ | (_ | _) | _ | _ | _ | _ | _ | _ | _ | _ <;>
      simp [arrived, eraseErrors, Event.eraseErrors, Carried]
  · rcases a with _ | _ | id | _ | _ <;> simp [arrived, eraseErrors, Carried, eq_comm]
  · exact iff_of_true rfl trivial

/-- An item comes back, up to its errors, exactly when the format carries it. -/
theorem round_trip_iff (hc : c.Faithful) {x : ProtocolItem S} {bodyType : BodyType}
    {p : ProtocolPacket} (hs : x.serialize c bodyType [] = some (.ok p)) :
    (∃ y, p.deserialize c = some (.ok y) ∧ y.eraseErrors = x.eraseErrors) ↔ x.Carried := by
  rw [deserialize_serialize hc hs, ← arrived_eraseErrors_iff]
  constructor
  · rintro ⟨y, hy, h⟩
    cases hy
    exact h
  · exact fun h => ⟨_, rfl, h⟩

end ProtocolItem

/-- A message of one boolean. -/
structure Flag where
  value : Bool
  deriving DecidableEq

namespace Flag

instance : SharedMessage Flag where
  typeTag _ := "app::Flag"
  isShared _ := true

/-- A `true` and a `false` as CBOR and JSON write them. -/
def bytes : Backend → Flag → List UInt8
  | .cbor, ⟨true⟩ => [0xF5]
  | .cbor, ⟨false⟩ => [0xF4]
  | .json, ⟨true⟩ => [0x74, 0x72, 0x75, 0x65]
  | .json, ⟨false⟩ => [0x66, 0x61, 0x6C, 0x73, 0x65]

def codec : Codec Flag where
  encode k m := .ok (bytes k m)
  registered tt := tt == "app::Flag"
  decode k _ data :=
    if data = bytes k ⟨true⟩ then .ok ⟨true⟩
    else if data = bytes k ⟨false⟩ then .ok ⟨false⟩ else .error "invalid type"
  debug tt := tt.getD "None"

theorem codec_faithful : codec.Faithful where
  registered _ _ := by
    show ("app::Flag" == "app::Flag") = true
    rfl
  roundTrip k m data _ h := by
    cases h
    rcases k with _ | _ <;> rcases m with ⟨_ | _⟩ <;> rfl

end Flag

namespace ProtocolItem

theorem round_trip_flag : ∃ p y, (send 7 (⟨true⟩ : Flag) true).serialize Flag.codec .cbor []
    = some (.ok p) ∧ p.deserialize Flag.codec = some (.ok y)
      ∧ y.eraseErrors = (send 7 (⟨true⟩ : Flag) true).eraseErrors := by
  have hs : (send 7 (⟨true⟩ : Flag) true).serialize Flag.codec .cbor [] = some (.ok _) := rfl
  obtain ⟨y, hy⟩ := (round_trip_iff Flag.codec_faithful hs).2 trivial
  exact ⟨_, y, hs, hy⟩

/-- The id of an `Init` is not written, and zero is read in its place. -/
theorem init_loses_id : ¬ ∀ (c : Codec Flag), c.Faithful → ∀ (x : ProtocolItem Flag)
    (bodyType : BodyType) (p : ProtocolPacket), bodyType = .cbor ∨ bodyType = .json →
      x.serialize c bodyType [] = some (.ok p) →
        ∃ y, p.deserialize c = some (.ok y) ∧ y.eraseErrors = x.eraseErrors := by
  intro h
  obtain ⟨y, hy, he⟩ := h Flag.codec Flag.codec_faithful (.action (.init 5)) .cbor _ (.inl rfl) rfl
  cases hy
  cases he

end ProtocolItem

end MessageBus
