import MessageBus.Proofs.Counted
import MessageBus.Proofs.FailedRequests
import MessageBus.Responses

/-!
# Which responses a request survives

A local poller answers with a result of its handler, its error, or `NoResponse`
(`OnStream.fromHandler`), and the decoder's errors have no message in them either, so `specify`
never panics. What is left are the relays: they have no typed wrapper, and what they bring need not
be of the type that `request` waits for.
-/

namespace MessageBus

section Pollers

/-- A response is the handler's, or there is none. -/
def Event.FromHandler {R E : Type} : Event R E → Prop
  | .response _ (.ok _) | .response _ (.error (.other _)) | .response _ (.error .noResponse) => True
  | .response _ (.error _) => False
  | _ => True

theorem fromHandler_mapError {R E : Type} (mid : UInt64) (resp : Except E R) :
    (Event.response mid (resp.mapError .other)).FromHandler := by
  cases resp <;> trivial

section Unbatched

variable {M R E : Type}

theorem BufferUnordered.fromHandler_step {cfg : BufferUnorderedConfig}
    {s s' : BufferUnordered M R E} {l : PollerLabel M (Label R E)}
    (h : ∀ ev ∈ s.stx, ev.FromHandler) (hs : s.step cfg l = some s') :
    ∀ ev ∈ s'.stx, ev.FromHandler := by
  have hemit : ∀ {ev : Event R E}, ev.FromHandler → ∀ ev' ∈ s.stx ++ [ev], ev'.FromHandler :=
    fun hev => List.forall_mem_append.2 ⟨h, List.forall_mem_singleton.2 hev⟩
  cases move hs with
  | take item rx hpc hrx =>
    rcases item with a | ⟨mid, msg, req⟩
    · cases a with
      | init id => exact hemit trivial
      | _ => exact h
    · exact h
  | flushed => exact hemit trivial
  | synced resp => exact hemit trivial
  | send i mid msg resp => exact hemit (fromHandler_mapError mid resp)
  | _ => exact h

end Unbatched

theorem SynchronizedItem.fromHandler_step {ι H : Type} [DecidableEq ι] {M R E : ι → Type}
    {f : SynchronizedHandler M R E H} {s s' : SynchronizedItem M R E H} {l : ItemLabel M}
    (h : ∀ i, ∀ ev ∈ (s.subs i).stx, ev.FromHandler) (hs : s.step f l = some s') :
    ∀ i, ∀ ev ∈ (s'.subs i).stx, ev.FromHandler := by
  have hset : ∀ {i : ι} {c : Subscription (M i) (R i) (E i) H}, (∀ ev ∈ c.stx, ev.FromHandler) →
      ∀ j, ∀ ev ∈ ((s.set i c).subs j).stx, ev.FromHandler :=
    forall_set (J := fun _ c => ∀ ev ∈ c.stx, ev.FromHandler) h
  have hemit : ∀ {i : ι} {ev : Event (R i) (E i)}, ev.FromHandler →
      ∀ ev' ∈ (s.subs i).stx ++ [ev], ev'.FromHandler :=
    fun hev => List.forall_mem_append.2 ⟨h _, List.forall_mem_singleton.2 hev⟩
  cases move hs with
  | take i item rx hpc hrx =>
    refine hset ?_
    rcases item with a | ⟨mid, msg, req⟩
    · cases a with
      | init id => exact hemit trivial
      | flush => exact hemit trivial
      | _ => exact h i
    · exact h i
  | handled i mid msg seen =>
    refine hset ?_
    cases (f.handle i seen msg).2 <;> exact h i
  | synced i seen =>
    refine hset ?_
    cases (f.sync i seen).2 <;> exact h i
  | respond i mid resp => exact hset (hemit (fromHandler_mapError mid resp))
  | report i resp => exact hset (hemit trivial)
  | push i | ends i | call i | callSync i => exact hset (h i)

section Batched

variable {M R E : Type}

theorem fromHandler_batchAnswers : ∀ (mids : List (UInt64 × Bool)) (re : List R),
    ∀ ev ∈ (batchAnswers mids re : List (Event R E)), ev.FromHandler
  | [], _ => List.forall_mem_nil _
  | (mid, _) :: mids, r :: re => by
    rw [batchAnswers, List.forall_mem_cons]
    exact ⟨trivial, fromHandler_batchAnswers mids re⟩
  | (mid, _) :: mids, [] => by
    rw [batchAnswers, List.forall_mem_cons]
    exact ⟨trivial, fromHandler_batchAnswers mids []⟩

theorem fromHandler_processBatchResult (resp : Except E (List R)) (mids : List (UInt64 × Bool)) :
    ∀ ev ∈ processBatchResult resp mids, ev.FromHandler := by
  unfold processBatchResult
  split
  · exact fromHandler_batchAnswers mids _
  · rw [List.forall_mem_append, List.forall_mem_singleton, List.forall_mem_map]
    exact ⟨fun _ _ => trivial, trivial⟩

/-- Of what a batched poller has sent, and of what its tasks have still to send. -/
structure BatchCore.FromHandler (c : BatchCore M R E) : Prop where
  sent : ∀ ev ∈ c.stx, ev.FromHandler
  unsent : ∀ t ∈ c.tasks, ∀ ev ∈ t.unsent, ev.FromHandler

namespace BatchCore.FromHandler

variable {c c' : BatchCore M R E}

theorem congr (h : c.FromHandler) (ht : c'.tasks = c.tasks) (hs : c'.stx = c.stx) :
    c'.FromHandler :=
  ⟨hs ▸ h.sent, ht ▸ h.unsent⟩

theorem emit (h : c.FromHandler) (ev : Event R E) (hev : ev.FromHandler) :
    (c.emit ev).FromHandler :=
  ⟨List.forall_mem_append.2 ⟨h.sent, List.forall_mem_singleton.2 hev⟩, h.unsent⟩

theorem spawn (h : c.FromHandler) (batch : Batch M) : (c.spawn batch).FromHandler :=
  ⟨h.sent, List.forall_mem_append.2
    ⟨h.unsent, List.forall_mem_singleton.2 (List.forall_mem_nil _)⟩⟩

theorem setTask (h : c.FromHandler) (i : ℕ) (t : BatchTask M R E)
    (ht : ∀ ev ∈ t.unsent, ev.FromHandler) (handled : List (List M)) :
    FromHandler { c with tasks := c.tasks.set i t, handled := handled } := by
  refine ⟨h.sent, fun t' ht' => ?_⟩
  rcases List.mem_or_eq_of_mem_set ht' with ht' | rfl
  · exact h.unsent t' ht'
  · exact ht

theorem task (h : c.FromHandler) (hs : TaskStep c c') : c'.FromHandler := by
  rcases hs with hs | hs | hs | hs
  · obtain ⟨batch, -, rfl⟩ := startTask_eq_some hs
    exact h.setTask _ ⟨batch, .handling⟩ (List.forall_mem_nil _) _
  · rename_i resp
    obtain ⟨batch, -, rfl⟩ := finishTask_eq_some hs
    exact h.setTask _ ⟨batch, .sending _⟩ (fromHandler_processBatchResult resp batch.mids) _
  · obtain ⟨batch, ev, evs, hi, rfl⟩ := sendTask_eq_some hs
    have hunsent : ∀ ev' ∈ ev :: evs, ev'.FromHandler := h.unsent _ (List.mem_of_getElem? hi)
    rw [List.forall_mem_cons] at hunsent
    exact (h.setTask _ ⟨batch, .sending evs⟩ hunsent.2 c.handled).emit ev hunsent.1
  · obtain ⟨batch, -, rfl⟩ := panicTask_eq_some hs
    exact h.setTask _ ⟨batch, .sending []⟩ (List.forall_mem_nil _) _

end BatchCore.FromHandler

theorem BufferUnorderedBatched.fromHandler_step {cfg : BufferUnorderedBatchedConfig}
    {s s' : BufferUnorderedBatched M R E}
    {l : PollerLabel M (BufferUnorderedBatchedLabel R E ⊕ Panic)} (h : s.core.FromHandler)
    (hs : (withPanics (bufferUnorderedBatchPoller M R E cfg) (panic cfg)).step s l = some s') :
    s'.core.FromHandler := by
  obtain ⟨l', hl'⟩ | ⟨p, hp⟩ := withPanics_step hs
  · cases move hl' with
    | push | ends | sync => exact h.congr rfl rfl
    | take item rx =>
      rcases item with a | ⟨mid, msg, req⟩
      · cases a with
        | init id => exact (h.emit .ready trivial).congr rfl rfl
        | flush =>
          simp only [body]
          split_ifs <;> exact h.congr rfl rfl
        | _ => exact h.congr rfl rfl
      · exact h.congr rfl rfl
    | dispatch => exact (h.spawn _).congr rfl rfl
    | flushDispatch batch => exact h.spawn batch
    | flushed => exact h.emit _ trivial
    | synced resp => exact h.emit _ trivial
    | start i c hc => exact h.task (.start hc)
    | finish i resp c hc => exact h.task (.finish hc)
    | send i c hc => exact h.task (.send hc)
  · obtain ⟨i, c, -, hc, rfl⟩ | ⟨-, -, rfl⟩ := panic_cases hp
    · exact h.task (.panic hc)
    · exact h.congr rfl rfl

theorem SynchronizedBatched.fromHandler_step {cfg : SynchronizedBatchedConfig}
    {s s' : SynchronizedBatched M R E}
    {l : PollerLabel M (SynchronizedBatchedLabel R E ⊕ Panic)} (h : s.core.FromHandler)
    (hs : (withPanics (batchSynchronizedPoller M R E cfg) panic).step s l = some s') :
    s'.core.FromHandler := by
  obtain ⟨l', hl'⟩ | ⟨p, hp⟩ := withPanics_step hs
  · cases move hl' with
    | take item rx =>
      rcases item with a | ⟨mid, msg, req⟩
      · cases a with
        | init id => exact (h.emit .ready trivial).congr rfl rfl
        | flush =>
          simp only [body]
          split_ifs
          · exact (h.emit .flushed trivial).congr rfl rfl
          · exact ((h.spawn _).emit .flushed trivial).congr rfl rfl
        | _ => exact h.congr rfl rfl
      · simp only [body]
        split_ifs
        · exact (h.spawn _).congr rfl rfl
        · exact h.congr rfl rfl
    | synced resp => exact h.emit _ trivial
    | start i c _ hc => exact h.task (.start hc)
    | finish i resp c _ hc => exact h.task (.finish hc)
    | send i c hc => exact h.task (.send hc)
    | _ => exact h.congr rfl rfl
  · obtain ⟨i, c, -, -, hc, rfl⟩ | ⟨-, -, rfl⟩ := panic_cases hp
    · exact h.task (.panic hc)
    · exact h.congr rfl rfl

end Batched

/-- Every response of a local receiver is its handler's, or `NoResponse`. -/
theorem OnStream.fromHandler {M R E : Type} {ev : Event R E} (h : OnStream M R E ev) :
    ev.FromHandler := by
  cases h with
  | bufferUnordered cfg h hev =>
    exact Lts.invariant (J := fun s => ∀ ev ∈ s.stx, ev.FromHandler) (List.forall_mem_nil _)
      (fun _ _ _ => BufferUnordered.fromHandler_step) h _ hev
  | synchronized f h₀ h i hev =>
    exact Lts.invariant (J := fun s => ∀ i, ∀ ev ∈ (s.subs i).stx, ev.FromHandler)
      (fun _ => List.forall_mem_nil _) (fun _ _ _ => SynchronizedItem.fromHandler_step) h i _ hev
  | bufferUnorderedBatched cfg h hev =>
    exact (Lts.invariant (J := fun s : BufferUnorderedBatched M R E => s.core.FromHandler)
      ⟨List.forall_mem_nil _, List.forall_mem_nil _⟩
      (fun _ _ _ => BufferUnorderedBatched.fromHandler_step) h).sent _ hev
  | synchronizedBatched cfg h hev =>
    exact (Lts.invariant (J := fun s : SynchronizedBatched M R E => s.core.FromHandler)
      ⟨List.forall_mem_nil _, List.forall_mem_nil _⟩
      (fun _ _ _ => SynchronizedBatched.fromHandler_step) h).sent _ hev

end Pollers

section Errors

variable {M R E : Type}

/-- A handler's response, whole or with its error boxed, is specified. -/
theorem specified_of_fromHandler [StdSyncSendError E] {mid : UInt64} {res : Except (Error Unit E) R}
    (h : (Event.response mid res).FromHandler) :
    (specified res : Option (Except (Error M E) R)) ≠ none ∧
      (specified (res.mapError Error.intoDyn) : Option (Except (Error M GenericError) R))
        ≠ none := by
  rcases res with err | x
  · cases err with
    | other err => exact ⟨by simp [specified, Error.specify],
        by simp [specified, Error.specify, Except.mapError, Error.intoDyn]⟩
    | noResponse => exact ⟨by simp [specified, Error.specify],
        by simp [specified, Error.specify, Except.mapError, Error.intoDyn]⟩
    | _ => cases h
  · exact ⟨by simp [specified], by simp [specified, Except.mapError]⟩

theorem specify_of_deserializeSharedMessage {S B : Type} {c : Codec S} {tt : TypeTag} {k : Backend}
    {data : List UInt8} {err : Error B GenericError}
    (h : deserializeSharedMessage (B := B) c tt k data = some (.error err)) :
    ((err.mapMsg fun _ => ()).specify : Option (Error M GenericError)) ≠ none := by
  unfold deserializeSharedMessage at h
  split_ifs at h
  · split at h
    · cases h
    · cases h
      simp [Error.mapMsg, Error.specify]
  · cases h
    simp [Error.mapMsg, Error.specify]

/-- The decoder's errors are the peer's, or say why a body could not be decoded. -/
theorem specify_of_bodyAndError {S : Type} {c : Codec S} {p : ProtocolPacket} {body : Option S}
    {err : Error Unit GenericError} (h : p.bodyAndError c = some (.ok (body, some err))) :
    (err.specify : Option (Error M GenericError)) ≠ none := by
  unfold ProtocolPacket.bodyAndError genericDeserialize at h
  split_ifs at h
  · split at h
    · cases h
    · cases h
      simp [Error.specify]
  · split at h
    · cases h
    · split at h
      · rename_i data k hk
        cases htt : p.typeTag? with
        | none => simp [htt] at h
        | some tt =>
          simp only [htt, Option.map_map, Option.map_eq_some_iff] at h
          obtain ⟨res, hres, h⟩ := h
          cases res with
          | error err' =>
            simp only [Function.comp, Except.map, Except.ok.injEq, Prod.mk.injEq,
              Option.some.injEq] at h
            rw [← h.2]
            exact specify_of_deserializeSharedMessage hres
          | ok x => simp [Except.map] at h
      · simp [Except.map] at h
  · cases h

theorem specified_of_deserialize {S : Type} {c : Codec S} {p : ProtocolPacket} {mid : UInt64}
    {res : Except (Error Unit GenericError) S}
    (h : p.deserialize c = some (.ok (.event (.response mid res)))) :
    (specified res : Option (Except (Error M GenericError) S)) ≠ none := by
  unfold ProtocolPacket.deserialize at h
  split at h
  · cases h
  · cases h
  · rename_i body error hbody
    cases res with
    | ok x => simp [specified]
    | error err =>
      have herr : error = some err := by
        unfold ProtocolPacket.item at h
        rcases p.header.kind <;> dsimp only at h <;> (repeat' split at h) <;> simp_all
      subst herr
      simpa [specified] using specify_of_bodyAndError (M := M) hbody

end Errors

section Deliver

variable {S T E : Type} [TypeTagged T] [DecidableEq T] [TypedMessage S T] [StdSyncSendError E]
  {c : Codec S} {r : BusReceiver S T} {key : Slab.Key} {kind : WaiterKind} {tx : ℕ}

/-- The reply that a response makes for a waiter of the kind; a relay's are boxed. -/
def Answer.reply (kind : WaiterKind) : Answer S E → Reply S E S
  | .typed res => kind.reply id res
  | .relay res => .boxed res

omit [DecidableEq T] in
/-- The waiter's own response reaches its channel. -/
theorem BusReceiver.deliver_eq (hw : r.waiters key = some ⟨r.channel kind, tx⟩) {ans : Answer S E}
    (hans : r.CanDeliver c (requestMid key) ans) :
    r.deliver (requestMid key) tx ans = .sent (ans.reply kind) := by
  cases r with
  | typed types wrapper closed rx =>
    cases ans with
    | typed res =>
      have hw : wrapper.waiters.slot key = some ⟨kind, tx⟩ := hw
      simp [deliver, handleEvent, response, Slab.take, hw, Oneshot.send, Answer.reply]
    | relay res => cases hans
  | relay table wrapper inner =>
    cases ans with
    | typed res => cases hans
    | relay res =>
      have hw : wrapper.waiters.slot key = some tx := by simpa [waiters, channel] using hw
      have : (wrapper.answer (fun _ => .waiting) (requestMid key) res).2 tx = .sent res := by
        simp [RelayWrapper.answer, Slab.take, hw, Oneshot.send]
      cases res <;> simp [deliver, RelayWrapper.handleEvent, this, Answer.reply]

/-- What a relay brings is an error, or of the type waited for. -/
def Answer.Fits (resp : Option T) : Answer S E → Prop
  | .relay (.ok x) => ∀ t ∈ resp, TypedMessage.typeId x = t
  | _ => True

/-- Delivering the answer gives the caller a result. -/
def Operation.Resolves (op : Operation S T) (r : BusReceiver S T) (key : Slab.Key) (tx : ℕ)
    (ans : Answer S E) : Prop :=
  ∃ reply fin, r.deliver (requestMid key) tx ans = .sent reply ∧
    op.receive (some reply) = some fin ∧ fin ≠ .panicked

omit [DecidableEq T] [StdSyncSendError E] in
theorem RequestEnd.ofPlain_ne_panicked {M E : Type}
    {res : Option (Except (Error M GenericError) M)} :
    (RequestEnd.ofPlain res : RequestEnd M E) ≠ .panicked ↔ res ≠ none := by
  cases res <;> simp [RequestEnd.ofPlain]

theorem RequestEnd.ofWithError_ne_panicked {M E : Type} {res : Option (Except (Error M E) M)} :
    RequestEnd.ofWithError res ≠ .panicked ↔ res ≠ none := by
  cases res <;> simp [RequestEnd.ofWithError]

theorem fromHandler_map {R R' E : Type} {mid : UInt64} {res : Except (Error Unit E) R} (f : R → R')
    (h : (Event.response mid res).FromHandler) : (Event.response mid (res.map f)).FromHandler := by
  rcases res with err | x
  · cases err <;> exact h
  · trivial

/-- A local receiver's response always gives a result. -/
theorem Operation.resolves_typed {op : Operation S T} {a : RequestCall S T}
    (ha : op.requestCall = some a) {mid : UInt64} {res : Except (Error Unit E) S}
    (hres : (Event.response mid res).FromHandler) :
    ∃ fin, op.receive (some ((Answer.typed res).reply a.kind)) = some fin ∧ fin ≠ .panicked := by
  obtain ⟨hwhole, hdyn⟩ := specified_of_fromHandler (M := S) hres
  have hmap : ∀ {E : Type} (res : Except E S), res.map id = res := fun res => by cases res <;> rfl
  cases op with
  | request => cases ha; exact ⟨_, rfl, RequestEnd.ofPlain_ne_panicked.2 hdyn⟩
  | requestWe => cases ha; exact ⟨_, rfl, RequestEnd.ofWithError_ne_panicked.2 hwhole⟩
  | requestBoxed =>
    cases ha
    exact ⟨_, rfl, RequestEnd.ofPlain_ne_panicked.2 (by rwa [hmap])⟩
  | requestBoxedWe =>
    cases ha
    exact ⟨_, rfl, RequestEnd.ofWithError_ne_panicked.2 (by rwa [hmap])⟩
  | _ => cases ha

/-- A relay's response gives a result unless it is a message of another type than the one that
`request` unwraps its downcast to. -/
theorem Operation.resolves_relay {op : Operation S T} {a : RequestCall S T}
    (ha : op.requestCall = some a) (hl : a.e = none) {res : Except (Error Unit GenericError) S}
    (hres : (specified res : Option (Except (Error S GenericError) S)) ≠ none) :
    (∃ fin, op.receive (some ((Answer.relay res : Answer S E).reply a.kind)) = some fin ∧
      fin ≠ .panicked) ↔ (Answer.relay res : Answer S E).Fits a.resp := by
  cases op with
  | request req options resp =>
    cases ha
    simp only [receive, Answer.reply, Option.some.injEq, exists_eq_left',
      RequestEnd.ofPlain_ne_panicked]
    cases res with
    | error err => simpa [downcast, Answer.Fits] using hres
    | ok x =>
      by_cases h : TypedMessage.typeId x = resp <;> simp [downcast, Answer.Fits, h, specified]
  | requestBoxed req options =>
    cases ha
    simp only [receive, Answer.reply, Option.some.injEq, exists_eq_left',
      RequestEnd.ofPlain_ne_panicked]
    cases res <;> simp [Answer.Fits, hres]
  | requestWe => cases ha; cases hl
  | requestBoxedWe => cases ha; cases hl
  | _ => cases ha

theorem Operation.resolves_iff {op : Operation S T} {a : RequestCall S T}
    (ha : op.requestCall = some a) (hl : r.ListensFor a.resp a.e)
    (hw : r.waiters key = some ⟨r.channel a.kind, tx⟩) {ans : Answer S E}
    (hans : r.CanDeliver c (requestMid key) ans) :
    op.Resolves r key tx ans ↔ ans.Fits a.resp := by
  simp only [Resolves, BusReceiver.deliver_eq hw hans, Oneshot.sent.injEq, exists_and_left,
    exists_eq_left']
  cases r with
  | typed types wrapper closed rx =>
    cases ans with
    | relay res => cases hans
    | typed res =>
      obtain ⟨x, hx, rfl⟩ := hans
      exact iff_of_true (resolves_typed ha (fromHandler_map Subtype.val hx.fromHandler)) trivial
  | relay table wrapper inner =>
    cases ans with
    | typed res => cases hans
    | relay res =>
      obtain ⟨packet, hp⟩ := hans
      exact resolves_relay ha hl (specified_of_deserialize hp)

end Deliver

section Main

variable {S T E : Type} [TypeTagged T] [DecidableEq T] [TypedMessage S T] [StdSyncSendError E]

/-- The call panics nowhere, and where its message is accepted the answer gives its caller a result,
whatever has become of its receiver meanwhile. -/
def CallOutcome.Answered (o : CallOutcome S T) (op : Operation S T) (tx : ℕ) (ans : Answer S E) :
    Prop :=
  o.done ≠ .panicked ∧ ∀ id key, o.done = .awaiting id key → ∀ r : BusReceiver S T,
    r.shape = (o.bus.receivers id).shape → r.waiters key = (o.bus.receivers id).waiters key →
      op.Resolves r key tx ans

/-- The selected receiver has the request's types and does not panic on its message, and what it
answers fits. -/
def RequestCall.Answerable (a : RequestCall S T) (env : CallSetting S) (b : LiveBus S T)
    (ans : Answer S E) : Prop :=
  ∀ rc ∈ a.selected b, (b.receivers rc).ListensFor a.resp a.e ∧
    ((b.receivers rc).HasRoom env.key → ∀ b', b.reserve env a.ep rc a.tt = some b' →
      ¬ (b'.receivers rc).Unwraps a.ep a.req ∧
      ((b'.receivers rc).Accepts a.req → ans.Fits a.resp))

section Shape

variable {r r' : BusReceiver S T}

omit [TypeTagged T] [DecidableEq T] [TypedMessage S T] in
theorem BusReceiver.listensFor_of_shape {resp e : Option T} (h : r'.shape = r.shape)
    (hl : r.ListensFor resp e) : r'.ListensFor resp e := by
  cases r <;> cases r' <;> cases h <;> exact hl

omit [TypeTagged T] [DecidableEq T] [TypedMessage S T] in
theorem BusReceiver.channel_of_shape (h : r'.shape = r.shape) : r'.channel = r.channel := by
  cases r <;> cases r' <;> cases h <;> rfl

omit [DecidableEq T] [StdSyncSendError E] in
theorem BusReceiver.canDeliver_of_shape {c : Codec S} {mid : UInt64} {ans : Answer S E}
    (h : r'.shape = r.shape) (hd : r.CanDeliver c mid ans) : r'.CanDeliver c mid ans := by
  cases ans <;> cases r <;> cases r' <;> cases h <;> exact hd

omit [StdSyncSendError E] in
theorem BusReceiver.not_unwraps_of_accepts {ep : EntryPoint} {msg : S} (h : r.Accepts msg) :
    ¬ r.Unwraps ep msg := by
  cases r with
  | typed types wrapper closed rx =>
    intro hu
    have := h.1.symm.trans hu.1
    cases this
  | relay table wrapper inner => exact fun hu => hu

omit [StdSyncSendError E] in
theorem BusReceiver.not_unwraps_boxed {msg : S} : ¬ r.Unwraps .sendBoxed msg := by
  cases r with
  | typed types wrapper closed rx => exact fun hu => hu.2 rfl
  | relay table wrapper inner => exact fun hu => hu

end Shape

variable {c : Codec S} {env : CallSetting S} {b : LiveBus S T} {op : Operation S T}
  {a : RequestCall S T} {ans : Answer S E} {rc : UInt64} {key : Slab.Key} {tx : ℕ}

theorem answered_awaiting_iff {o : CallOutcome S T} (h : o.done = .awaiting rc key) :
    o.Answered op tx ans ↔ ∀ r : BusReceiver S T, r.shape = (o.bus.receivers rc).shape →
      r.waiters key = (o.bus.receivers rc).waiters key → op.Resolves r key tx ans := by
  unfold CallOutcome.Answered
  rw [h]
  refine ⟨fun hr => hr.2 rc key rfl, fun hr => ⟨by simp, fun id k hd => ?_⟩⟩
  cases hd
  exact hr

omit [StdSyncSendError E] in
/-- What a permit's receiver makes of a message hangs on its counters, its queue and its types. -/
theorem LiveBus.reserve_forall {b₁ b₂ : LiveBus S T} {ep : EntryPoint} {tt : TypeTag} {msg : S}
    {p : Prop} (hs : (b₂.receivers rc).slots = (b₁.receivers rc).slots)
    (hsh : (b₂.receivers rc).shape = (b₁.receivers rc).shape) :
    (∀ b', b₁.reserve env ep rc tt = some b' → ¬ (b'.receivers rc).Unwraps ep msg ∧
        ((b'.receivers rc).Accepts msg → p)) →
      ∀ b', b₂.reserve env ep rc tt = some b' → ¬ (b'.receivers rc).Unwraps ep msg ∧
        ((b'.receivers rc).Accepts msg → p) := by
  intro h b' hb'
  obtain ⟨b'', hb'', hs', hsh'⟩ := LiveBus.reserve_of_slots hs.symm hsh.symm hb'
  have := h b'' hb''
  rwa [BusReceiver.Unwraps, BusReceiver.Accepts, hs', BusReceiver.isM_of_shape hsh'] at this

/-- A request past its waiter: once there is a permit the send decides. -/
theorem answered_sendRequest_iff (ha : op.requestCall = some a)
    (hl : (b.receivers rc).ListensFor a.resp a.e)
    (hw : (b.receivers rc).waiters key = some ⟨(b.receivers rc).channel a.kind, tx⟩)
    (hans : (b.receivers rc).CanDeliver c (requestMid key) ans)
    {conv : Error S GenericError → Option (Error S GenericError)}
    (hconv : ∀ err : Error S GenericError, err.mapErrUnimplemented = some err →
      (conv err).isSome = true) :
    (b.sendRequest env rc a.ep a.tt key a.req conv).Answered op tx ans ↔
      ∀ b', b.reserve env a.ep rc a.tt = some b' → ¬ (b'.receivers rc).Unwraps a.ep a.req ∧
        ((b'.receivers rc).Accepts a.req → ans.Fits a.resp) := by
  unfold LiveBus.sendRequest
  cases hres : b.reserve env a.ep rc a.tt with
  | none => simp [CallOutcome.Answered]
  | some b₁ =>
    have hframe := LiveBus.frame_reserve hres
    simp only [Option.some.injEq, forall_eq']
    rcases (b₁.receivers rc).send_cases a.ep (requestMid key) a.req true with ⟨hacc, s, h, -⟩ |
      ⟨hu, h⟩ | ⟨hacc, hu, s, err, h, -, herr⟩
    · -- The call waits, and its receiver still has the types and the waiter of before.
      have hresolves : ∀ r : BusReceiver S T, r.shape = (b.receivers rc).shape →
          r.waiters key = (b.receivers rc).waiters key →
          (op.Resolves r key tx ans ↔ ans.Fits a.resp) := fun r hsh hwt =>
        Operation.resolves_iff ha (BusReceiver.listensFor_of_shape hsh hl)
          (by rw [hwt, hw, BusReceiver.channel_of_shape hsh])
          (BusReceiver.canDeliver_of_shape hsh hans)
      have hsh : ((b₁.set rc ((b₁.receivers rc).withSlots s)).receivers rc).shape
          = (b.receivers rc).shape := by simp [hframe.shape rc]
      have hwt : ((b₁.set rc ((b₁.receivers rc).withSlots s)).receivers rc).waiters key
          = (b.receivers rc).waiters key := by simp [hframe.waiters rc]
      simp only [LiveBus.sendTo, h]
      rw [answered_awaiting_iff rfl]
      refine ⟨fun hr => ⟨BusReceiver.not_unwraps_of_accepts hacc, fun _ => ?_⟩,
        fun hf r hsh' hwt' => (hresolves r (hsh'.trans hsh) (hwt'.trans hwt)).2 (hf.2 hacc)⟩
      exact (hresolves _ hsh hwt).1 (hr _ rfl rfl)
    · simp only [LiveBus.sendTo, h, hu, not_true_eq_false, false_and, iff_false]
      split_ifs <;> simp [CallOutcome.Answered]
    · obtain ⟨err', herr'⟩ := Option.isSome_iff_exists.1 (hconv err herr)
      simp [LiveBus.sendTo, h, hacc, hu, herr', CallEnd.failed, CallOutcome.Answered]

/-- A request on an open bus gives its caller a result exactly where the selected receiver has the
request's types, does not panic on its message, and a relay answers with an error or a message of
the type waited for. -/
theorem Operation.answered_iff_answerable (c : Codec S) (env : CallSetting S) (b : LiveBus S T)
    (hopen : b.closed = false) (op : Operation S T) (a : RequestCall S T)
    (ha : op.requestCall = some a) (ans : Answer S E)
    (hans : ∀ rc ∈ a.selected b, ∀ key ∈ env.key,
      (b.receivers rc).CanDeliver c (requestMid key) ans) :
    (op.run c env b).Answered op env.tx ans ↔ a.Answerable env b ans := by
  rcases Operation.run_requestCall c env (fun _ => hopen) ha with ⟨hsel, hrun⟩ |
    ⟨rc, w, conv, conv', hsel, hw, hconv, hconv', hrun⟩
  · simp [hrun, RequestCall.Answerable, hsel, CallOutcome.Answered]
  · obtain ⟨err, herr⟩ := Option.isSome_iff_exists.1 hconv
    simp only [hrun, RequestCall.Answerable, hsel, Option.mem_some_iff, forall_eq']
    rcases LiveBus.listen_cases hw conv
        (fun b key => b.sendRequest env rc a.ep a.tt key a.req conv') with ⟨hl, h⟩ |
      ⟨hl, hr, h⟩ | ⟨hl, k, r, hk, hnone, hsome, hslots, hshape, h⟩
    · simp [h, hl, CallOutcome.Answered]
    · simp [h, hl, hr, herr, CallEnd.failed, CallOutcome.Answered]
    · have hr : (b.receivers rc).HasRoom env.key := ⟨k, hk, hnone⟩
      have hset : (b.set rc r).receivers rc = r := LiveBus.receivers_set ..
      have hl' : ((b.set rc r).receivers rc).ListensFor a.resp a.e := by
        rw [hset]
        exact BusReceiver.listensFor_of_shape hshape hl
      have hw' : ((b.set rc r).receivers rc).waiters k
          = some ⟨((b.set rc r).receivers rc).channel a.kind, env.tx⟩ := by
        rw [hset, hsome, BusReceiver.channel_of_shape hshape]
      have hans' : ((b.set rc r).receivers rc).CanDeliver c (requestMid k) ans := by
        rw [hset]
        exact BusReceiver.canDeliver_of_shape hshape (hans rc (by simp [hsel]) k (by simp [hk]))
      rw [h, answered_sendRequest_iff ha hl' hw' hans' hconv']
      simp only [hl, hr, true_and, forall_const]
      exact ⟨LiveBus.reserve_forall (by rw [hset, hslots]) (by rw [hset, hshape]),
        LiveBus.reserve_forall (by rw [hset, hslots]) (by rw [hset, hshape])⟩

end Main

section Flag

open Utf8Lossy

/-- A relay whose peer serves `Flag`s. -/
def BusReceiver.flagRelay : BusReceiver Flag NamedType :=
  .relay (.ofList [("app::Flag", some ("()", "app::Err"))]) .new TcpRelay.new

/-- The peer's error for the first request. -/
def peerError : Answer Flag GenericError := .relay (.error (.other ⟨lossy [], ""⟩))

theorem canDeliver_peerError :
    BusReceiver.flagRelay.CanDeliver Flag.codec (requestMid 0) peerError :=
  ⟨⟨⟨.response, some [], ⟨0b1101⟩, .utf8, requestMid 0⟩, none⟩, rfl⟩

namespace Operation

theorem answered_iff_answerable_boxed :
    ((requestBoxed ⟨true⟩ .broadcast).run Flag.codec (.quiet (some 0) 0)
      (.one .flagRelay)).Answered (requestBoxed ⟨true⟩ .broadcast) 0 peerError := by
  refine (answered_iff_answerable Flag.codec (.quiet (some 0) 0) (.one .flagRelay) rfl
    (requestBoxed ⟨true⟩ .broadcast) _ rfl peerError ?_).2 ?_
  · intro rc _ key hkey
    cases hkey
    exact canDeliver_peerError
  · exact fun rc _ => ⟨rfl, fun _ b' _ => ⟨BusReceiver.not_unwraps_boxed, fun _ => trivial⟩⟩

/-- A relay has no typed wrapper for `request_we`, whatever its peer answers. -/
theorem request_we_panics_on_relay :
    ¬ ∀ (c : Codec Flag) (env : CallSetting Flag) (b : LiveBus Flag NamedType),
      b.closed = false → ∀ (op : Operation Flag NamedType) (a : RequestCall Flag NamedType),
      op.requestCall = some a → ∀ ans : Answer Flag GenericError,
      (∀ rc ∈ a.selected b, ∀ key ∈ env.key,
        (b.receivers rc).CanDeliver c (requestMid key) ans) →
      (op.run c env b).Answered op env.tx ans := fun h => by
  have hans := h Flag.codec (.quiet (some 0) 0) (.one .flagRelay) rfl
    (requestWe ⟨true⟩ .broadcast ⟨"()"⟩ ⟨"app::Err"⟩) _ rfl peerError fun rc _ key hkey => by
      cases hkey
      exact canDeliver_peerError
  exact hans.1 rfl

end Operation

end Flag

end MessageBus
