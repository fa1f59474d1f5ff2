import MessageBus.Proofs.DecodePanic
import MessageBus.Proofs.Link
import MessageBus.Lib.Pool
import MessageBus.Serving

/-!
# What the steps of a serving process put on its item channel

Only a task that serves a `Send` frame puts a reply there, as it ends (`returns_job`). Every other
step puts actions, messages and the answers to actions (`PutsOnly`) and leaves those tasks alone,
but for a task whose message cannot be cloned (`deliver_cases`) and the one that a `Send` frame
spawns (`read_cases`).
-/

namespace MessageBus

section Puts

variable {S : Type} {e : Endpoint} {Q : ProtocolItem S → Prop}

/-- `Response` and `BatchComplete`, which a peer's slots and waiters wait for. -/
def ProtocolItem.isReply : ProtocolItem S → Bool
  | .event (.response _ _) | .event (.batchComplete _ _) => true
  | _ => false

/-- What `r'` holds past the items of `r` are items of one kind. -/
def TcpRelay.PutsOnly (Q : ProtocolItem S → Prop) (r r' : TcpRelay S) : Prop :=
  ∀ item ∈ (r'.items.drop r.items.length).filterMap (·.1), Q item

namespace TcpRelay

variable {r r' : TcpRelay S}

theorem PutsOnly.of_eq (h : r'.items = r.items) : PutsOnly Q r r' := by
  unfold PutsOnly
  rw [h, List.drop_length]
  simp

theorem putsOnly_sendItem {item : Option (ProtocolItem S)} {origin : ℕ}
    (hi : ∀ it, item = some it → Q it) (h : r.sendItem item origin = some r') :
    PutsOnly Q r r' := by
  unfold PutsOnly
  rw [sendItem_eq h, List.drop_left]
  intro it hit
  exact hi it (by simpa using hit)

theorem putsOnly_sendAction (ha : ∀ a, Q (.action a)) {a : Action}
    (h : r.sendAction a = some r') : PutsOnly Q r r' := by
  cases a with
  | init id =>
    cases h
    split_ifs
    · exact .of_eq rfl
    · exact .of_eq rfl
  | close =>
    obtain ⟨q, hq, rfl⟩ := Option.map_eq_some_iff.1 h
    have hs : PutsOnly Q r q := putsOnly_sendItem (by simp) hq
    exact hs
  | _ => exact putsOnly_sendItem (by rintro it ⟨⟩; exact ha _) h

theorem putsOnly_sendMsg [SharedMessage S] (hs : ∀ mid msg req, Q (.send mid msg req))
    (r : TcpRelay S) (mid : UInt64) (d : Call S) : PutsOnly Q r (r.sendMsg mid d) := by
  unfold sendMsg
  split_ifs
  · split
    · rename_i q hq
      have hput : PutsOnly Q r q := putsOnly_sendItem (by rintro it ⟨⟩; exact hs _ _ _) hq
      exact hput
    · exact .of_eq rfl
  · exact .of_eq rfl

end TcpRelay

namespace Process

open TcpRelay

variable {p p' : Process S}

theorem putsOnly_answer {item : ProtocolItem S} (hi : Q item) :
    PutsOnly Q p.relay (p.answer item).relay := by
  unfold answer
  split
  · rename_i relay h
    exact putsOnly_sendItem (by rintro it ⟨⟩; exact hi) h
  · exact .of_eq rfl

theorem putsOnly_finishRound {round : Round} (hf : round ≠ .syncAll → Q (.event .flushed))
    (hy : round = .syncAll → Q (.event (.synchronized (.ok ())))) :
    PutsOnly Q p.relay (p.finishRound e round).relay := by
  unfold finishRound
  split
  · split_ifs
    · exact .of_eq rfl
    · exact putsOnly_answer (hf (by simp))
  · exact putsOnly_answer (hy rfl)

theorem putsOnly_visitRelay (ha : ∀ a, Q (.action a)) (round : Round) (r : Receiver)
    (todo : List Receiver) : PutsOnly Q p.relay (p.visitRelay round r todo).relay := by
  unfold visitRelay
  split_ifs
  · split
    · rename_i relay h
      rw [relay_setNotify]
      exact putsOnly_sendAction ha h
    · exact .of_eq rfl
  · exact .of_eq rfl

/-- Only the end of a round puts an event on the item channel. -/
theorem putsOnly_visit (ha : ∀ a, Q (.action a)) {need : Bool}
    (hf : ∀ iter flushed, p.inbound = .visiting (.flushAll iter flushed) [] → Q (.event .flushed))
    (hy : p.inbound = .visiting .syncAll [] → Q (.event (.synchronized (.ok ()))))
    (h : p.visit e need = some p') : PutsOnly Q p.relay p'.relay := by
  unfold visit at h
  split at h
  · rename_i round hin
    cases h
    rcases round with ⟨iter, flushed⟩ | _
    · exact putsOnly_finishRound (fun _ => hf iter flushed hin) (by rintro ⟨⟩)
    · exact putsOnly_finishRound (fun hr => absurd rfl hr) fun _ => hy hin
  · cases h
    split_ifs
    · exact putsOnly_visitRelay ha _ _ _
    · exact .of_eq rfl
    · exact .of_eq rfl
  · cases h

end Process

end Puts

namespace ProtocolPacket

variable {S : Type} {c : Codec S} {p : ProtocolPacket} {msg : S}

/-- The frame is a `Send` whose body a registered loader turns into `msg`. -/
structure Carries (c : Codec S) (p : ProtocolPacket) (msg : S) : Prop where
  kind : p.header.kind = .send
  error : p.header.flags.contains .error = false
  flags : p.header.flags.contains .ttAndBody = true
  loads : ∃ tt data k, p.typeTag? = some tt ∧ p.body = some data
    ∧ p.header.bodyType.backend = some k ∧ c.registered tt = true ∧ c.decode k tt data = .ok msg

/-- No other kind makes a message. -/
theorem kind_of_item {body : Option S} {error : Option (Error Unit GenericError)} {mid : UInt64}
    {req : Bool} (h : p.item c body error = some (.ok (.send mid msg req))) :
    p.header.kind = .send := by
  unfold item at h
  cases hk : p.header.kind with
  | send => rfl
  | response =>
    rw [hk] at h
    dsimp only at h
    split at h
    · cases h
    · split at h <;> cases h
  | synchronized | error =>
    rw [hk] at h
    dsimp only at h
    split at h <;> cases h
  | batchComplete =>
    rw [hk] at h
    obtain ⟨tt, -, heq⟩ := Option.map_eq_some_iff.1 h
    cases heq
  | _ =>
    rw [hk] at h
    cases h

theorem item_eq_send {body : Option S} {error : Option (Error Unit GenericError)} {mid : UInt64}
    {req : Bool} : p.item c body error = some (.ok (.send mid msg req)) ↔ p.header.kind = .send
      ∧ body = some msg ∧ mid = p.header.argument ∧ req = p.header.flags.contains .argument := by
  by_cases hk : p.header.kind = .send
  · unfold item
    rw [hk]
    rcases body with _ | msg'
    · simp
    · by_cases ha : p.header.flags.contains .argument = true <;> simp [ha] <;> grind
  · exact iff_of_false (fun h => hk (kind_of_item h)) fun h => hk h.1

theorem deserializeSharedMessage_eq_ok {B : Type} {tt : TypeTag} {k : Backend} {data : List UInt8} :
    deserializeSharedMessage (B := B) c tt k data = some (.ok msg)
      ↔ c.registered tt = true ∧ c.decode k tt data = .ok msg := by
  unfold deserializeSharedMessage
  split_ifs with h
  · split
    · simp [*]
    · simp [Error.specify, *]
  · simp [h]

theorem bodyAndError_eq_body {error : Option (Error Unit GenericError)} :
    p.bodyAndError c = some (.ok (some msg, error)) ↔ error = none
      ∧ p.header.flags.contains .error = false ∧ p.header.flags.contains .ttAndBody = true
      ∧ ∃ tt data k, p.typeTag? = some tt ∧ p.body = some data ∧ p.header.bodyType.backend = some k
        ∧ c.registered tt = true ∧ c.decode k tt data = .ok msg := by
  unfold bodyAndError
  by_cases he : p.header.flags.contains .error = true
  · rw [if_pos he]
    split <;> simp [he]
  · rw [if_neg he]
    by_cases hb : p.header.flags.contains .ttAndBody = true
    · rw [if_pos hb]
      rcases hd : p.body with _ | data
      · simp
      · rcases hk : p.header.bodyType.backend with _ | k
        · simp [genericDeserialize, hk, Except.map]
        · rcases ht : p.typeTag? with _ | tt
          · simp [genericDeserialize, hk]
          · have hload : deserializeSharedMessage (B := S) c tt k data = some (.ok msg) ↔ _ :=
              deserializeSharedMessage_eq_ok
            rcases hres : deserializeSharedMessage (B := S) c tt k data with _ | ⟨err | msg'⟩ <;>
              rw [hres] at hload <;>
              simp only [genericDeserialize, hk, hres, Option.map_none, Option.map_some,
                Except.map] at hload ⊢ <;>
              grind
    · rw [if_neg hb]
      simp [hb]

theorem deserialize_eq_send {mid : UInt64} {req : Bool} :
    p.deserialize c = some (.ok (.send mid msg req)) ↔ p.Carries c msg
      ∧ mid = p.header.argument ∧ req = p.header.flags.contains .argument := by
  constructor
  · intro h
    unfold deserialize at h
    split at h
    · cases h
    · cases h
    · rename_i body error hbe
      obtain ⟨hkind, rfl, hmid, hreq⟩ := item_eq_send.1 h
      obtain ⟨-, he, hb, hloads⟩ := bodyAndError_eq_body.1 hbe
      exact ⟨⟨hkind, he, hb, hloads⟩, hmid, hreq⟩
  · rintro ⟨⟨hkind, he, hb, hloads⟩, hmid, hreq⟩
    have hbe : p.bodyAndError c = some (.ok (some msg, none)) :=
      bodyAndError_eq_body.2 ⟨rfl, he, hb, hloads⟩
    unfold deserialize
    rw [hbe]
    exact item_eq_send.2 ⟨hkind, rfl, hmid, hreq⟩

end ProtocolPacket

section Jobs

variable {S : Type} {e : Endpoint} {p p' : Process S} {Q : ProtocolItem S → Prop}

namespace Process

open TcpRelay

theorem perm_jobs_eraseIdx {i : ℕ} {d : Call S} (hi : p.calls[i]? = some d) :
    p.jobs.Perm (d.job?.toList ++ (p.calls.eraseIdx i).filterMap Call.job?) := by
  obtain ⟨hlt, hget⟩ := List.getElem?_eq_some_iff.1 hi
  have hperm := (List.getElem_cons_eraseIdx_perm hlt).symm.filterMap Call.job?
  rw [hget, List.filterMap_cons] at hperm
  rcases hj : d.job? with _ | j
  · simpa [hj, jobs] using hperm
  · simpa [hj, jobs] using hperm

theorem jobs_of_calls (h : p'.calls = p.calls) : p'.jobs = p.jobs := by
  rw [jobs, h, jobs]

variable [CloneMessage S]

/-- The task of a call that sends to `r` next panics. -/
def Fails (e : Endpoint) (d : Call S) (r : Receiver) : Prop :=
  d.kind.clones = true ∧ CloneMessage.tryClone d.msg = false
    ∨ d.kind.withError = true ∧ r.id = e.relayId

theorem deliver_cases {i : ℕ} {key : Slab.Key} {mid : UInt64}
    (hs : ∀ mid msg req, Q (.send mid msg req)) (h : p.deliver e i key mid = some p') :
    ∃ d r todo, p.calls[i]? = some d ∧ d.todo = some (r :: todo) ∧ PutsOnly Q p.relay p'.relay
      ∧ (Fails e d r ∧ p'.calls = p.calls.eraseIdx i
        ∨ ¬ Fails e d r ∧ p'.calls = p.calls.set i { d with todo := some todo }) := by
  unfold deliver at h
  split at h
  · rename_i origin kind msg frame r todo hi
    refine ⟨_, r, todo, hi, rfl, ?_⟩
    have hfails : Fails e ⟨origin, kind, msg, frame, some (r :: todo)⟩ r
        ↔ (kind.clones && !CloneMessage.tryClone msg || kind.withError && r.id == e.relayId)
          = true := by
      simp [Fails]
    rw [hfails]
    by_cases hc : (kind.clones && !CloneMessage.tryClone msg
        || kind.withError && r.id == e.relayId) = true
    · rw [if_pos hc] at h
      cases h
      exact ⟨.of_eq rfl, .inl ⟨hc, rfl⟩⟩
    · rw [if_neg hc] at h
      by_cases hr : r.id = e.relayId
      · rw [if_pos hr] at h
        obtain ⟨q, hq, h⟩ := Option.bind_eq_some_iff.1 h
        obtain ⟨wrapper, rfl⟩ := listen_eq hq
        rw [Option.ite_none_right_eq_some] at h
        obtain ⟨-, h⟩ := h
        cases h
        exact ⟨putsOnly_sendMsg hs _ _ _, .inr ⟨hc, rfl⟩⟩
      · rw [if_neg hr] at h
        cases h
        exact ⟨.of_eq rfl, .inr ⟨hc, rfl⟩⟩
  · cases h

/-- A step other than the end of a call or of a round puts actions and messages only. -/
theorem putsOnly_act (ha : ∀ a, Q (.action a)) (hs : ∀ mid msg req, Q (.send mid msg req))
    {l : ProcLabel S} (hl : l.ends = false) (hv : ∀ need, l ≠ .visit need)
    (h : p.act e l = some p') : PutsOnly Q p.relay p'.relay := by
  rcases l with _ | i | ⟨i, key, mid⟩ | ⟨i, res⟩ | need | _ | round | round | _ | _ | _ | _
  · simp only [act, Option.map_eq_some_iff] at h
    obtain ⟨relay, hr, rfl⟩ := h
    exact putsOnly_sendAction ha hr
  · cases move h
    exact .of_eq rfl
  · obtain ⟨d, r, todo, -, -, hput, -⟩ := deliver_cases hs h
    exact hput
  · cases hl
  · exact absurd rfl (hv need)
  · cases move h
    exact .of_eq rfl
  · cases h
    unfold callerAwait
    split
    · rename_i relay hr
      rw [relay_setNotify]
      exact putsOnly_sendAction ha hr
    · exact .of_eq rfl
  · cases h
    exact .of_eq (by rw [callerCancel, relay_setNotify])
  · cases h
    exact .of_eq rfl
  · simp only [act, Option.map_eq_some_iff] at h
    obtain ⟨relay, hr, rfl⟩ := h
    exact putsOnly_sendAction ha hr
  · cases move h
    exact .of_eq rfl
  · cases move h
    simp [PutsOnly, halt]

theorem jobs_act {l : ProcLabel S} (hl : l.ends = false)
    (hd : ∀ i key mid, l ≠ .deliver i key mid) (h : p.act e l = some p') : p'.jobs = p.jobs := by
  rcases l with _ | i | ⟨i, key, mid⟩ | ⟨i, res⟩ | need | _ | round | round | _ | _ | _ | _
  case start =>
    cases move h with
    | start hi hc htodo => exact Pool.filterMap_set_of_eq hi _ rfl
  case deliver => exact absurd rfl (hd i key mid)
  case finish => cases hl
  case visit => exact jobs_of_calls (keeps_visit h).2
  all_goals cases move h <;> simp [jobs]

end Process

end Jobs

section Ends

variable {S : Type} [CloneMessage S] {c : Codec S} {e : Endpoint} {p p' : Process S}
  {Q : ProtocolItem S → Prop}

/-- The outcome of a request can be put in a `Response`. -/
def Outcome.replies : Outcome S → Bool
  | .returned _ => true
  | .answered (.ok resp) => SharedMessage.isShared resp
  | .answered (.error (.sendError _)) => false
  | .answered (.error (.tryAgain _)) => false
  | .answered (.error (.wrongMessageType _)) => false
  | .answered (.error _) => true

/-- The reply a task owes. -/
def Job.AnsweredBy (j : Job S) : ProtocolItem S → Prop
  | .event (.response mid _) => j.kind.isReq = true ∧ mid = j.mid
  | .event (.batchComplete tt n) => j.kind.isReq = false ∧ tt = Message.typeTag j.msg ∧ n = 1
  | _ => False

namespace Process

open TcpRelay

omit [CloneMessage S] in
theorem putsOnly_read [SharedMessage S] (hx : Q (.event .exited)) (pkt : ProtocolPacket)
    (origin : ℕ) : PutsOnly Q p.relay (p.read c e pkt origin).relay := by
  unfold read
  split
  · exact .of_eq rfl
  · exact .of_eq rfl
  · exact .of_eq (by rw [(handle_same p _).1])
  · exact putsOnly_answer hx
  · exact .of_eq rfl
  · exact .of_eq rfl
  · exact .of_eq rfl
  · exact .of_eq rfl
  · exact .of_eq rfl

omit [CloneMessage S] in
theorem calls_answer (item : ProtocolItem S) : (p.answer item).calls = p.calls := by
  unfold answer
  split <;> rfl

omit [CloneMessage S] in
theorem read_carries [SharedMessage S] {pkt : ProtocolPacket} {origin : ℕ} {msg : S}
    (h : pkt.Carries c msg) : p.read c e pkt origin = { p with
      calls := p.calls ++ [p.dispatch origin pkt.header.argument msg
        (pkt.header.flags.contains .argument)] } := by
  unfold read
  rw [ProtocolPacket.deserialize_eq_send.2 ⟨h, rfl, rfl⟩]

omit [CloneMessage S] in
theorem read_cases [SharedMessage S] (c : Codec S) (e : Endpoint) (p : Process S)
    (pkt : ProtocolPacket) (origin : ℕ) :
    (∃ msg, pkt.Carries c msg ∧ p.read c e pkt origin = { p with
      calls := p.calls ++ [p.dispatch origin pkt.header.argument msg
        (pkt.header.flags.contains .argument)] })
    ∨ (∀ msg, ¬ pkt.Carries c msg) ∧ (p.read c e pkt origin).calls = p.calls := by
  by_cases h : ∃ msg, pkt.Carries c msg
  · obtain ⟨msg, hmsg⟩ := h
    exact .inl ⟨msg, hmsg, read_carries hmsg⟩
  · refine .inr ⟨not_exists.1 h, ?_⟩
    unfold read
    split
    · rfl
    · rfl
    · exact (handle_same p _).2.1
    · exact calls_answer _
    · rfl
    · rfl
    · rfl
    · rename_i mid msg req hd
      exact absurd ⟨msg, (ProtocolPacket.deserialize_eq_send.1 hd).1⟩ h
    · rfl

omit [CloneMessage S] in
theorem puts_of_eq (h : p'.relay.items = p.relay.items) : p.puts p' = [] := by
  simp [puts, h]

omit [CloneMessage S] in
theorem puts_append (item : ProtocolItem S) (origin : ℕ)
    (h : p'.relay.items = p.relay.items ++ [(some item, origin)]) : p.puts p' = [item] := by
  simp [puts, h]

/-- A call that serves no frame puts nothing on the item channel. -/
theorem finish_user {i : ℕ} {res : Except (Error Unit GenericError) S} {d : Call S}
    (hi : p.calls[i]? = some d) (hf : d.frame = none) (h : p.finish i res = some p') :
    p'.calls = p.calls.eraseIdx i ∧ p.puts p' = [] := by
  unfold finish at h
  rw [hi] at h
  split at h
  · rename_i heq
    cases heq
    cases hf
    cases h
    exact ⟨rfl, puts_of_eq rfl⟩
  · cases h

theorem finish_job {i : ℕ} {res : Except (Error Unit GenericError) S} {d : Call S} {mid : UInt64}
    (hi : p.calls[i]? = some d) (hf : d.frame = some mid) (h : p.finish i res = some p') :
    p'.calls = p.calls.eraseIdx i ∧ p.puts p' = if p.relay.rx = true then
      (answerItem d.kind d.msg res mid).toList else [] := by
  unfold finish at h
  rw [hi] at h
  split at h
  · rename_i origin kind msg frame heq
    cases heq
    cases hf
    cases h
    refine ⟨rfl, ?_⟩
    rcases ha : answerItem kind msg res mid with _ | item
    · rw [puts_of_eq (by simp [ha])]
      simp
    · by_cases hrx : p.relay.rx = true
      · rw [if_pos hrx, puts_append item 0 (by simp [ha, sendItem, hrx])]
        rfl
      · rw [if_neg hrx, puts_of_eq (by simp [ha, sendItem, hrx])]
  · cases h

theorem returns_call {i : ℕ} {o : Outcome S} (h : p.returns i o = some p') :
    ∃ d, p.calls[i]? = some d := by
  rcases hi : p.calls[i]? with _ | d
  · simp only [returns, finish, hi] at h
    split at h <;> cases h
  · exact ⟨d, rfl⟩

omit [CloneMessage S] in
theorem take_eq_some (h : p.take = some p') : ∃ o items, p.relay.items = o :: items
    ∧ p' = { p with relay.items := items } := by
  unfold take at h
  split at h
  · cases h
  · rename_i o items hitems
    rw [Option.ite_none_right_eq_some] at h
    exact ⟨o, items, hitems, (Option.some.inj h.2).symm⟩

omit [CloneMessage S] in
theorem puts_take (h : p.take = some p') : p.puts p' = [] := by
  obtain ⟨o, items, hitems, rfl⟩ := take_eq_some h
  rw [puts, hitems, List.drop_eq_nil_of_le (by simp)]
  rfl

theorem returns_user {i : ℕ} {o : Outcome S} {d : Call S} (hi : p.calls[i]? = some d)
    (hf : d.frame = none) (h : p.returns i o = some p') :
    p'.calls = p.calls.eraseIdx i ∧ p.puts p' = [] := by
  unfold returns at h
  split at h
  · exact finish_user hi hf h
  · split at h
    · cases h
      exact ⟨rfl, puts_of_eq rfl⟩
    · cases h

theorem answerItem_plain {kind : CallKind} (hk : kind.isReq = false) (msg : S)
    (res : Except (Error Unit GenericError) S) (mid : UInt64) :
    answerItem kind msg res mid = some (.event (.batchComplete (Message.typeTag msg) 1)) := by
  simp [answerItem, hk]

theorem answerItem_request {kind : CallKind} (hk : kind.isReq = true) (msg : S) {o : Outcome S}
    {res : Except (Error Unit GenericError) S} (ho : o.result = some res) (mid : UInt64) :
    answerItem kind msg res mid
      = if o.replies = true then some (.event (.response mid res)) else none := by
  rcases o with err | err | resp
  · cases ho
    simp [answerItem, hk, Outcome.replies]
  · obtain ⟨err', -, rfl⟩ := Option.map_eq_some_iff.1 ho
    cases err <;> simp_all [answerItem, Outcome.replies, Outcome.result, Error.specify]
  · cases ho
    simp only [answerItem, hk, if_true]
    rfl

theorem replies_of_result_eq_none {o : Outcome S} (h : o.result = none) : o.replies = false := by
  rcases o with err | err | resp
  · cases h
  · have hspec := Option.map_eq_none_iff.1 h
    cases err <;> simp_all [Error.specify, Outcome.replies]
  · cases h

/-- What a task that ends puts on the item channel is the reply it owes, or nothing. -/
theorem returns_job {i : ℕ} {o : Outcome S} {d : Call S} {j : Job S} (hi : p.calls[i]? = some d)
    (hj : d.job? = some j) (h : p.returns i o = some p') : p'.calls = p.calls.eraseIdx i
      ∧ if p.relay.rx = true ∧ (j.kind.isReq = true → o.replies = true) then
          ∃ item, p.puts p' = [item] ∧ j.AnsweredBy item
        else p.puts p' = [] := by
  obtain ⟨mid, hf, rfl⟩ := Option.map_eq_some_iff.1 hj
  unfold returns at h
  dsimp only
  split at h
  · rename_i res ho
    obtain ⟨hcalls, hputs⟩ := finish_job hi hf h
    refine ⟨hcalls, ?_⟩
    rw [hputs]
    by_cases hrx : p.relay.rx = true
    · by_cases hk : d.kind.isReq = true
      · rw [answerItem_request hk d.msg ho]
        by_cases hr : o.replies = true
        · simp [hrx, hr, Job.AnsweredBy, hk]
        · simp [hrx, hr, hk]
      · rw [Bool.not_eq_true] at hk
        rw [answerItem_plain hk]
        simp [hrx, hk, Job.AnsweredBy]
    · simp [hrx]
  · rename_i ho
    split at h
    · rename_i heq
      rw [hi] at heq
      cases heq
      cases h
      exact ⟨rfl, by simp [replies_of_result_eq_none ho, CallKind.isReq, puts_of_eq]⟩
    · cases h

end Process

end Ends

namespace Flag

/-- A `Send` frame with a body that loads as a `Flag`. -/
def frame (tag : TypeTag) (req : Bool) : ProtocolPacket :=
  ProtocolItem.pack .send (some tag) (((ProtocolHeaderFlags.empty.set .argument req).set .body
    true).set .typeTag true) .cbor 7 (some [0xF5])

theorem typeTag?_frame (tag : TypeTag) (req : Bool) : (frame tag req).typeTag? = some tag :=
  ProtocolItem.typeTag?_pack _ _ (by cases req <;> rfl) _ _ _

theorem carries_frame (tag : TypeTag) (req : Bool) (msg : Flag) :
    (frame tag req).Carries codec msg ↔ tag = "app::Flag" ∧ msg = ⟨true⟩ := by
  constructor
  · rintro ⟨-, -, -, tt, data, k, htt, hdata, hk, hreg, hdec⟩
    cases hdata
    cases hk
    cases hdec
    rw [typeTag?_frame] at htt
    cases htt
    exact ⟨by simpa [codec] using hreg, rfl⟩
  · rintro ⟨rfl, rfl⟩
    refine ⟨rfl, ?_, ?_, "app::Flag", [0xF5], .cbor, typeTag?_frame _ _, rfl, rfl, ?_, rfl⟩
    · cases req <;> rfl
    · cases req <;> rfl
    · simp [codec]

end Flag

end MessageBus
