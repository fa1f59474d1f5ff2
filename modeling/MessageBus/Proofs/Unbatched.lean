import MessageBus.Lib.Pool
import MessageBus.Proofs.BatchClose
import MessageBus.Served

/-!
# What the unbatched pollers keep

Every item of the queue but `Close` is answered by one event. A `BufferUnordered` task stands for
one message of the queue, and its `Response` is in the stream once the task has sent it
(`BufferUnordered.Kept`). A `Synchronized` subscription answers its items in the order of its queue
(`Subscription.InOrder`). `serve_cases` is what a step of a receiver around a poller does to it.
-/

namespace MessageBus

variable {M R E : Type}

/-- The message of an item, with its mid. -/
def Request.call? : Request M → Option (UInt64 × M)
  | .request mid msg _ => some (mid, msg)
  | .action _ => none

/-- The mid of a `Response`, with its result. -/
def Event.answer? : Event R E → Option (UInt64 × Except (Error Unit E) R)
  | .response mid res => some (mid, res)
  | _ => none

theorem mids_calls (items : List (Request M)) :
    items.filterMap Request.mid? = (items.filterMap Request.call?).map (·.1) := by
  rw [List.map_filterMap]
  refine List.filterMap_congr fun item _ => ?_
  cases item <;> rfl

theorem mids_answers (evs : List (Event R E)) :
    evs.filterMap Event.mid? = (evs.filterMap Event.answer?).map (·.1) := by
  rw [List.map_filterMap]
  refine List.filterMap_congr fun ev _ => ?_
  cases ev <;> rfl

namespace BufferUnordered

variable {cfg : BufferUnorderedConfig} {s s' : BufferUnordered M R E}
  {l : PollerLabel M (Label R E)}

/-- Everything a step can do. -/
inductive Move (cfg : BufferUnorderedConfig) (s : BufferUnordered M R E) :
    PollerLabel M (Label R E) → BufferUnordered M R E → Prop
  | push (item : Request M) : s.closed = false →
      Move cfg s (.push item) { s with rx := s.rx ++ [item] }
  | take (item : Request M) (rx : List (Request M)) : s.pc = .recv → s.rx = item :: rx →
      Move cfg s (.run .recv) (body { s with rx := rx, taken := s.taken ++ [item] } item)
  | ends : s.pc = .recv → s.rx = [] → s.closed = true →
      Move cfg s (.run .recv) { s with pc := .ended }
  | dispatch (mid : UInt64) (msg : M) : s.pc = .acquire mid msg → 1 ≤ s.permits →
      Move cfg s (.run .acquire) { s with
        pc := .recv, permits := s.permits - 1, tasks := s.tasks ++ [⟨mid, msg, .spawned⟩] }
  | flushed : s.pc = .flushAll → allPermits cfg ≤ s.permits →
      Move cfg s (.run .acquire) { s.emit .flushed with pc := .recv }
  | sync : s.pc = .syncAll → allPermits cfg ≤ s.permits →
      Move cfg s (.run .acquire) { s with pc := .syncing, permits := s.permits - allPermits cfg }
  | synced (resp : Except E Unit) : s.pc = .syncing →
      Move cfg s (.run (.syncDone resp)) { s.emit (.synchronized (resp.mapError .other)) with
        pc := .recv, permits := s.permits + allPermits cfg }
  | syncPanic : s.pc = .syncing →
      Move cfg s (.run .syncPanic)
        { s with pc := .aborted, closed := true, permits := s.permits + allPermits cfg }
  | start (i : ℕ) (mid : UInt64) (msg : M) : s.tasks[i]? = some ⟨mid, msg, .spawned⟩ →
      Move cfg s (.run (.start i)) { s with tasks := s.tasks.set i ⟨mid, msg, .handling⟩ }
  | finish (i : ℕ) (mid : UInt64) (msg : M) (resp : Except E R) :
      s.tasks[i]? = some ⟨mid, msg, .handling⟩ →
      Move cfg s (.run (.finish i resp))
        { s with permits := s.permits + 1, tasks := s.tasks.set i ⟨mid, msg, .returned resp⟩ }
  | panic (i : ℕ) (mid : UInt64) (msg : M) : s.tasks[i]? = some ⟨mid, msg, .handling⟩ →
      Move cfg s (.run (.panic i))
        { s with permits := s.permits + 1, tasks := s.tasks.set i ⟨mid, msg, .panicked⟩ }
  | send (i : ℕ) (mid : UInt64) (msg : M) (resp : Except E R) :
      s.tasks[i]? = some ⟨mid, msg, .returned resp⟩ →
      Move cfg s (.run (.send i)) ({ s with tasks := s.tasks.set i ⟨mid, msg, .sent resp⟩ }.emit
        (.response mid (resp.mapError .other)))

theorem move (h : s.step cfg l = some s') : Move cfg s l s' := by
  rcases l with item | l
  · simp only [step] at h
    split_ifs at h with hclosed
    cases h
    exact .push item (by simpa using hclosed)
  · rcases l with _ | _ | resp | _ | i | ⟨i, resp⟩ | i | i <;> simp only [step, run] at h
    · unfold recv at h
      split at h
      · rename_i item rx hpc hrx
        cases h
        exact .take item rx hpc hrx
      · rename_i hpc hrx
        split_ifs at h with hclosed
        cases h
        exact .ends hpc hrx hclosed
      · cases h
    · unfold acquire at h
      split at h
      · split_ifs at h with hp
        cases h
        exact .dispatch _ _ ‹_› hp
      · split_ifs at h with hp
        cases h
        exact .flushed ‹_› hp
      · split_ifs at h with hp
        cases h
        exact .sync ‹_› hp
      · cases h
    · split at h
      · cases h
        exact .synced resp ‹_›
      · cases h
    · split at h
      · cases h
        exact .syncPanic ‹_›
      · cases h
    · split at h
      · cases h
        exact .start i _ _ ‹_›
      · cases h
    · split at h
      · cases h
        exact .finish i _ _ resp ‹_›
      · cases h
    · split at h
      · cases h
        exact .panic i _ _ ‹_›
      · cases h
    · split at h
      · cases h
        exact .send i _ _ _ ‹_›
      · cases h

/-- The message taken off the queue whose task is not spawned yet. -/
def Pc.held : Pc M → List (UInt64 × M)
  | .acquire mid msg => [(mid, msg)]
  | _ => []

/-- What a task has sent. -/
def answer? (t : CallTask M R E) : Option (UInt64 × Except (Error Unit E) R) :=
  match t.stage with
  | .sent resp => some (t.mid, resp.mapError .other)
  | _ => none

/-- The tasks are the messages taken, in order, and the `Response`s those of the tasks that have
sent. -/
structure Kept (s : BufferUnordered M R E) : Prop where
  calls : s.tasks.map (fun t => (t.mid, t.msg)) ++ s.pc.held = s.taken.filterMap Request.call?
  answers : (s.stx.filterMap Event.answer?).Perm (s.tasks.filterMap answer?)
  quiet : ∀ ev ∈ s.stx, ev.answer?.isSome = true ∨ ev.fromPoller = true

theorem Kept.start : Kept (start cfg : BufferUnordered M R E) where
  calls := by
    unfold BufferUnordered.start
    dsimp only
    split_ifs <;> rfl
  answers := .nil
  quiet := List.forall_mem_nil _

theorem Kept.emit (h : Kept s) {ev : Event R E} (ha : ev.answer? = none)
    (hev : ev.fromPoller = true) : Kept (s.emit ev) where
  calls := h.calls
  answers := by
    simpa [BufferUnordered.emit, ha] using h.answers
  quiet := by
    simp only [BufferUnordered.emit, List.forall_mem_append, List.forall_mem_singleton]
    exact ⟨h.quiet, .inr hev⟩

/-- Only the tasks, the held message, the stream and the taken items count. -/
theorem Kept.congr (h : Kept s) (ht : s'.tasks = s.tasks) (hp : s'.pc.held = s.pc.held)
    (hs : s'.stx = s.stx) (hk : s'.taken = s.taken) : Kept s' := by
  obtain ⟨hc, ha, hq⟩ := h
  constructor
  · simpa only [ht, hp, hk] using hc
  · simpa only [ht, hs] using ha
  · simpa only [hs] using hq

/-- A task moves on without sending. -/
theorem Kept.setTask (h : Kept s) {i : ℕ} {mid : UInt64} {msg : M} {stage : CallStage R E}
    (hi : s.tasks[i]? = some ⟨mid, msg, stage⟩) (stage' : CallStage R E)
    (ha : answer? (⟨mid, msg, stage'⟩ : CallTask M R E) = answer? ⟨mid, msg, stage⟩)
    (permits : ℕ) :
    Kept { s with permits := permits, tasks := s.tasks.set i ⟨mid, msg, stage'⟩ } where
  calls := by
    have := Pool.map_set_of_eq (f := fun t => (t.mid, t.msg)) hi
      ⟨mid, msg, stage'⟩ rfl
    dsimp only
    rw [this]
    exact h.calls
  answers := by
    have := Pool.perm_filterMap_set answer? ⟨mid, msg, stage'⟩ hi
    rw [ha] at this
    exact h.answers.trans ((List.perm_append_right_iff _).1 this).symm
  quiet := h.quiet

theorem Kept.sendTask (h : Kept s) {i : ℕ} {mid : UInt64} {msg : M} {resp : Except E R}
    (hi : s.tasks[i]? = some ⟨mid, msg, .returned resp⟩) :
    Kept ({ s with tasks := s.tasks.set i ⟨mid, msg, .sent resp⟩ }.emit
      (.response mid (resp.mapError .other))) where
  calls := by
    have := Pool.map_set_of_eq (f := fun t => (t.mid, t.msg)) hi
      ⟨mid, msg, .sent resp⟩ rfl
    dsimp only [BufferUnordered.emit]
    rw [this]
    exact h.calls
  answers := by
    have := Pool.perm_filterMap_set answer? ⟨mid, msg, .sent resp⟩ hi
    simp only [answer?, Option.toList_none, List.append_nil, Option.toList_some] at this
    simp only [BufferUnordered.emit, List.filterMap_append]
    exact (h.answers.append_right _).trans this.symm
  quiet := by
    simp only [BufferUnordered.emit, List.forall_mem_append, List.forall_mem_singleton]
    exact ⟨h.quiet, .inl rfl⟩

theorem kept_body (h : Kept s) (hpc : s.pc = .recv) (item : Request M) (rx : List (Request M)) :
    Kept (body { s with rx := rx, taken := s.taken ++ [item] } item) := by
  have hcalls := h.calls
  simp only [hpc, Pc.held, List.append_nil] at hcalls
  rcases item with a | ⟨mid, msg, req⟩
  · have h' : Kept { s with rx := rx, taken := s.taken ++ [.action a] } := by
      refine ⟨?_, h.answers, h.quiet⟩
      simp only [hpc, Pc.held, List.append_nil, List.filterMap_append]
      rw [hcalls]
      simp [Request.call?]
    cases a with
    | init id => exact h'.emit rfl rfl
    | close => exact h'.congr rfl rfl rfl rfl
    | _ => exact h'.congr rfl (by simp [body, hpc, Pc.held]) rfl rfl
  · refine ⟨?_, h.answers, h.quiet⟩
    simp [body, Pc.held, hcalls, Request.call?]

theorem kept_step (h : Kept s) (hs : s.step cfg l = some s') : Kept s' := by
  cases move hs with
  | push item => exact h.congr rfl rfl rfl rfl
  | take item rx hpc hrx => exact kept_body h hpc item rx
  | ends hpc => exact h.congr rfl (by rw [hpc]; rfl) rfl rfl
  | dispatch mid msg hpc =>
    refine ⟨?_, ?_, h.quiet⟩
    · have := h.calls
      simpa [hpc, Pc.held] using this
    · rw [List.filterMap_append]
      simpa [List.filterMap_cons, answer?] using h.answers
  | flushed hpc =>
    exact (h.emit rfl rfl : Kept (s.emit .flushed)).congr rfl
      (by simp [BufferUnordered.emit, hpc, Pc.held]) rfl rfl
  | sync hpc => exact h.congr rfl (by rw [hpc]; rfl) rfl rfl
  | synced resp hpc =>
    exact (h.emit rfl rfl : Kept (s.emit (.synchronized (resp.mapError .other)))).congr rfl
      (by simp [BufferUnordered.emit, hpc, Pc.held]) rfl rfl
  | syncPanic hpc => exact h.congr rfl (by rw [hpc]; rfl) rfl rfl
  | start i mid msg hi => exact h.setTask hi .handling rfl s.permits
  | finish i mid msg resp hi => exact h.setTask hi (.returned resp) rfl (s.permits + 1)
  | panic i mid msg hi => exact h.setTask hi .panicked rfl (s.permits + 1)
  | send i mid msg resp hi => exact h.sendTask hi

end BufferUnordered

/-- What answers an item of an unbatched queue. -/
inductive Mark where
  | ready
  | flushed
  | synchronized
  | response (mid : UInt64)
  deriving DecidableEq, Repr

def Request.mark? : Request M → Option Mark
  | .request mid _ _ => some (.response mid)
  | .action (.init _) => some .ready
  | .action .flush => some .flushed
  | .action .sync => some .synchronized
  | .action _ => none

def Event.mark? : Event R E → Option Mark
  | .response mid _ => some (.response mid)
  | .ready => some .ready
  | .flushed => some .flushed
  | .synchronized _ => some .synchronized
  | _ => none

namespace Subscription

variable {H : Type} {s s' : Subscription M R E H}

theorem push_eq_some {item : Request M} (h : s.push item = some s') :
    s.closed = false ∧ s' = { s with rx := s.rx ++ [item] } := by
  unfold push at h
  split_ifs at h with hclosed
  cases h
  exact ⟨by simpa using hclosed, rfl⟩

theorem recv_eq_some (h : s.recv = some s') : s.pc = .recv
    ∧ ((∃ item rx, s.rx = item :: rx
        ∧ s' = body { s with rx := rx, taken := s.taken ++ [item] } item)
      ∨ (s.rx = [] ∧ s.closed = true ∧ s' = { s with pc := .ended })) := by
  unfold recv at h
  split at h
  · rename_i item rx hpc hrx
    cases h
    exact ⟨hpc, .inl ⟨item, rx, hrx, rfl⟩⟩
  · rename_i hpc hrx
    split_ifs at h with hclosed
    cases h
    exact ⟨hpc, .inr ⟨hrx, hclosed, rfl⟩⟩
  · cases h

theorem acquire_eq_some {h₀ : H} (h : s.acquire h₀ = some s') :
    (∃ mid msg, s.pc = .calling mid msg ∧ s' = { s with pc := .handling mid msg h₀ })
      ∨ (s.pc = .syncCalling ∧ s' = { s with pc := .syncing h₀ }) := by
  unfold acquire at h
  split at h
  · rename_i mid msg hpc
    cases h
    exact .inl ⟨mid, msg, hpc, rfl⟩
  · rename_i hpc
    cases h
    exact .inr ⟨hpc, rfl⟩
  · cases h

theorem send_eq_some (h : s.send = some s') :
    (∃ mid resp, s.pc = .returned mid resp
        ∧ s' = { s.emit (.response mid (resp.mapError .other)) with pc := .recv })
      ∨ ∃ resp, s.pc = .synced resp
        ∧ s' = { s.emit (.synchronized (resp.mapError .other)) with pc := .recv } := by
  unfold send at h
  split at h
  · rename_i mid resp hpc
    cases h
    exact .inl ⟨mid, resp, hpc, rfl⟩
  · rename_i resp hpc
    cases h
    exact .inr ⟨resp, hpc, rfl⟩
  · cases h

/-- What the item in hand is still to be answered by. -/
def Pc.owes : Pc M R E H → List Mark
  | .calling mid _ | .handling mid _ _ | .returned mid _ => [.response mid]
  | .syncCalling | .syncing _ | .synced _ => [.synchronized]
  | _ => []

/-- The loop is between two items, or past the last. -/
def Pc.idle : Pc M R E H → Bool
  | .recv | .ended => true
  | _ => false

/-- The stream answers the items in the order they were taken, all but the one in hand; a panic
leaves that one unanswered. -/
structure InOrder (s : Subscription M R E H) : Prop where
  order : s.stx.filterMap Event.mark? <+: s.taken.filterMap Request.mark?
  owed : s.pc ≠ .aborted →
    s.stx.filterMap Event.mark? ++ s.pc.owes = s.taken.filterMap Request.mark?
  held : s.pc.idle = false →
    s.stx.filterMap Event.mark? = s.taken.dropLast.filterMap Request.mark?
  quiet : ∀ ev ∈ s.stx, ev.mark?.isSome = true

theorem InOrder.start : InOrder (start : Subscription M R E H) :=
  ⟨List.nil_prefix, fun _ => rfl, by rintro ⟨⟩, List.forall_mem_nil _⟩

theorem InOrder.setPc (h : InOrder s) {pc : Pc M R E H} (hpc : s.pc ≠ .aborted)
    (ho : pc.owes = s.pc.owes) (hidle : pc.idle = s.pc.idle) : InOrder { s with pc } where
  order := h.order
  owed _ := by
    dsimp only
    rw [ho]
    exact h.owed hpc
  held hp := h.held (hidle ▸ hp)
  quiet := h.quiet

theorem InOrder.endCall (h : InOrder s) {pc : Option (Pc M R E H)} (hpc : s.pc ≠ .aborted)
    (hheld : s.pc.idle = false) (ho : ∀ pc' ∈ pc, pc'.owes = s.pc.owes ∧ pc'.idle = s.pc.idle) :
    InOrder (s.endCall pc) := by
  cases pc with
  | none => exact ⟨h.order, fun hp => absurd rfl hp, fun _ => h.held hheld, h.quiet⟩
  | some pc => exact h.setPc hpc (ho pc rfl).1 (ho pc rfl).2

/-- The item in hand is answered. -/
theorem InOrder.answer (h : InOrder s) {ev : Event R E} {m : Mark} (hpc : s.pc ≠ .aborted)
    (ho : s.pc.owes = [m]) (hev : ev.mark? = some m) :
    ({ s.emit ev with pc := .recv } : Subscription M R E H).InOrder := by
  have hmarks : (s.stx ++ [ev]).filterMap Event.mark? = s.taken.filterMap Request.mark? := by
    rw [List.filterMap_append, ← h.owed hpc, ho]
    simp [hev]
  refine ⟨?_, fun _ => ?_, by rintro ⟨⟩, ?_⟩
  · exact hmarks ▸ List.prefix_rfl
  · simpa [emit, Pc.owes] using hmarks
  · simp only [emit, List.forall_mem_append, List.forall_mem_singleton]
    exact ⟨h.quiet, by rw [hev]; rfl⟩

theorem inOrder_body (h : InOrder s) (hpc : s.pc = .recv) (item : Request M)
    (rx : List (Request M)) :
    InOrder (body { s with rx := rx, taken := s.taken ++ [item] } item) := by
  have howed : s.stx.filterMap Event.mark? = s.taken.filterMap Request.mark? := by
    simpa [hpc, Pc.owes] using h.owed (by simp [hpc])
  have howes : s.pc.owes = [] := by rw [hpc]; rfl
  have hkept : ∀ (c : Subscription M R E H), c.stx = s.stx → c.taken = s.taken ++ [item] →
      c.pc.owes = item.mark?.toList → InOrder c := by
    intro c hs ht hp
    have heq : c.stx.filterMap Event.mark? ++ c.pc.owes = c.taken.filterMap Request.mark? := by
      rw [hs, ht, hp, howed, List.filterMap_append]
      rcases hm : item.mark? with _ | m <;> simp [hm]
    exact ⟨heq ▸ List.prefix_append .., fun _ => heq, fun _ => by
      rw [hs, ht, List.dropLast_concat, howed], hs ▸ h.quiet⟩
  have hanswer : ∀ (c : Subscription M R E H) (ev : Event R E), c.stx = s.stx ++ [ev] →
      c.taken = s.taken ++ [item] → c.pc = .recv → ev.mark? = item.mark? →
      ev.mark?.isSome = true → InOrder c := by
    intro c ev hs ht hp hev hsome
    have heq : c.stx.filterMap Event.mark? = c.taken.filterMap Request.mark? := by
      rw [hs, ht, List.filterMap_append, List.filterMap_append, howed]
      simp [List.filterMap_cons, hev]
    refine ⟨heq ▸ List.prefix_rfl, fun _ => by rw [hp, heq]; exact List.append_nil _,
      by rw [hp]; rintro ⟨⟩, ?_⟩
    rw [hs, List.forall_mem_append, List.forall_mem_singleton]
    exact ⟨h.quiet, hsome⟩
  rcases item with a | ⟨mid, msg, req⟩
  · cases a with
    | init id => exact hanswer _ .ready rfl rfl hpc rfl rfl
    | flush => exact hanswer _ .flushed rfl rfl hpc rfl rfl
    | sync => exact hkept _ rfl rfl rfl
    | close => exact hkept _ rfl rfl howes
    | stats => exact hkept _ rfl rfl rfl
  · exact hkept _ rfl rfl rfl

end Subscription

namespace SynchronizedItem

variable {ι H : Type} [DecidableEq ι] {M R E : ι → Type} {f : SynchronizedHandler M R E H}
  {s s' : SynchronizedItem M R E H} {l : ItemLabel M}

/-- Everything a step can do. -/
inductive Move (f : SynchronizedHandler M R E H) (s : SynchronizedItem M R E H) :
    ItemLabel M → SynchronizedItem M R E H → Prop
  | push (i : ι) (item : Request (M i)) : (s.subs i).closed = false →
      Move f s (.push i item) (s.set i { s.subs i with rx := (s.subs i).rx ++ [item] })
  | take (i : ι) (item : Request (M i)) (rx : List (Request (M i))) : (s.subs i).pc = .recv →
      (s.subs i).rx = item :: rx → Move f s (.recv i) (s.set i (Subscription.body
        { s.subs i with rx := rx, taken := (s.subs i).taken ++ [item] } item))
  | ends (i : ι) : (s.subs i).pc = .recv → (s.subs i).rx = [] → (s.subs i).closed = true →
      Move f s (.recv i) (s.set i { s.subs i with pc := .ended })
  | call (i : ι) (mid : UInt64) (msg : M i) : s.lock = none → (s.subs i).pc = .calling mid msg →
      Move f s (.acquire i)
        { s.set i { s.subs i with pc := .handling mid msg s.handler } with lock := some i }
  | callSync (i : ι) : s.lock = none → (s.subs i).pc = .syncCalling →
      Move f s (.acquire i)
        { s.set i { s.subs i with pc := .syncing s.handler } with lock := some i }
  | handled (i : ι) (mid : UInt64) (msg : M i) (seen : H) :
      (s.subs i).pc = .handling mid msg seen →
      Move f s (.finish i) { s.set i ((s.subs i).endCall
          ((f.handle i seen msg).2.map (.returned mid))) with
        handler := (f.handle i seen msg).1, lock := none, calls := s.calls ++ [.handle i mid msg] }
  | synced (i : ι) (seen : H) : (s.subs i).pc = .syncing seen →
      Move f s (.finish i) { s.set i ((s.subs i).endCall ((f.sync i seen).2.map .synced)) with
        handler := (f.sync i seen).1, lock := none, calls := s.calls ++ [.sync i] }
  | respond (i : ι) (mid : UInt64) (resp : Except (E i) (R i)) :
      (s.subs i).pc = .returned mid resp → Move f s (.send i)
        (s.set i { (s.subs i).emit (.response mid (resp.mapError .other)) with pc := .recv })
  | report (i : ι) (resp : Except (E i) Unit) : (s.subs i).pc = .synced resp → Move f s (.send i)
        (s.set i { (s.subs i).emit (.synchronized (resp.mapError .other)) with pc := .recv })

theorem move (h : s.step f l = some s') : Move f s l s' := by
  cases l with
  | push i item =>
    obtain ⟨c, hc, rfl⟩ := Option.map_eq_some_iff.1 h
    obtain ⟨hclosed, rfl⟩ := Subscription.push_eq_some hc
    exact .push i item hclosed
  | recv i =>
    obtain ⟨c, hc, rfl⟩ := Option.map_eq_some_iff.1 h
    obtain ⟨hpc, ⟨item, rx, hrx, rfl⟩ | ⟨hrx, hclosed, rfl⟩⟩ := Subscription.recv_eq_some hc
    · exact .take i item rx hpc hrx
    · exact .ends i hpc hrx hclosed
  | acquire i =>
    simp only [step] at h
    split_ifs at h with hlock
    rw [Option.isNone_iff_eq_none] at hlock
    obtain ⟨c, hc, rfl⟩ := Option.map_eq_some_iff.1 h
    obtain ⟨mid, msg, hpc, rfl⟩ | ⟨hpc, rfl⟩ := Subscription.acquire_eq_some hc
    · exact .call i mid msg hlock hpc
    · exact .callSync i hlock hpc
  | finish i =>
    simp only [step, finish] at h
    split at h
    · cases h
      exact .handled i _ _ _ ‹_›
    · cases h
      exact .synced i _ ‹_›
    · cases h
  | send i =>
    obtain ⟨c, hc, rfl⟩ := Option.map_eq_some_iff.1 h
    obtain ⟨mid, resp, hpc, rfl⟩ | ⟨resp, hpc, rfl⟩ := Subscription.send_eq_some hc
    · exact .respond i mid resp hpc
    · exact .report i resp hpc

@[simp] theorem subs_set_self (i : ι) (c : Subscription (M i) (R i) (E i) H) :
    (s.set i c).subs i = c := Function.update_self ..

@[simp] theorem subs_set_ne {i j : ι} (h : j ≠ i) (c : Subscription (M i) (R i) (E i) H) :
    (s.set i c).subs j = s.subs j := Function.update_of_ne h ..

/-- What holds of every subscription holds still where one of them changes to what it holds of. -/
theorem forall_set {J : ∀ i, Subscription (M i) (R i) (E i) H → Prop} (h : ∀ j, J j (s.subs j))
    {i : ι} {c : Subscription (M i) (R i) (E i) H} (hc : J i c) :
    ∀ j, J j ((s.set i c).subs j) := by
  intro j
  by_cases hj : j = i
  · subst hj
    rw [subs_set_self]
    exact hc
  · rw [subs_set_ne hj]
    exact h j

theorem inOrder_step (h : ∀ i, (s.subs i).InOrder) (hs : s.step f l = some s') :
    ∀ i, (s'.subs i).InOrder := by
  have hset : ∀ {i : ι} {c : Subscription (M i) (R i) (E i) H}, c.InOrder →
      ∀ j, ((s.set i c).subs j).InOrder := forall_set (J := fun _ c => c.InOrder) h
  cases move hs with
  | push i item => exact hset ⟨(h i).order, (h i).owed, (h i).held, (h i).quiet⟩
  | take i item rx hpc => exact hset (Subscription.inOrder_body (h i) hpc item rx)
  | ends i hpc | call i _ _ _ hpc | callSync i _ hpc =>
    exact hset ((h i).setPc (by simp [hpc]) (by rw [hpc]; rfl) (by rw [hpc]; rfl))
  | handled i mid msg seen hpc | synced i seen hpc =>
    refine hset ((h i).endCall (by simp [hpc]) (by rw [hpc]; rfl) fun pc' hpc' => ?_)
    obtain ⟨resp, -, rfl⟩ := Option.map_eq_some_iff.1 hpc'
    rw [hpc]
    exact ⟨rfl, rfl⟩
  | respond i mid resp hpc =>
    exact hset ((h i).answer (by simp [hpc]) (by rw [hpc]; rfl) rfl)
  | report i resp hpc => exact hset ((h i).answer (by simp [hpc]) (by rw [hpc]; rfl) rfl)

end SynchronizedItem

section Served

variable {M R E B σ ℓ : Type} [StdSyncSendError E] {intoBoxed : R → B}
  {P : Lts σ (PollerLabel M ℓ)} {V : PollerView σ R E} {s s' : ServedState σ R E B}
  {l : ServedLabel M ℓ}

/-- The items the step pushes. -/
def ServedLabel.items : ServedLabel M ℓ → List (Request M)
  | .push item => [item]
  | _ => []

/-- What a step does to the poller and to the part of its stream that is handled. -/
theorem serve_cases (hs : s.step intoBoxed P V l = some s') :
    (∃ item, l = .push item ∧ P.step s.poller (.push item) = some s'.poller
        ∧ s'.heard = s.heard)
      ∨ (∃ m, l = .run m ∧ P.step s.poller (.run m) = some s'.poller ∧ s'.heard = s.heard)
      ∨ (∃ ev, l = .turn ∧ (V.stx s.poller)[s.heard]? = some ev ∧ s'.poller = s.poller
        ∧ s'.heard = s.heard + 1)
      ∨ (l.items = [] ∧ l ≠ .turn ∧ s'.poller = s.poller ∧ s'.heard = s.heard) := by
  cases l with
  | push item =>
    obtain ⟨p, hp, rfl⟩ := Option.map_eq_some_iff.1 hs
    exact .inl ⟨item, rfl, hp, rfl⟩
  | run m =>
    obtain ⟨p, hp, rfl⟩ := Option.map_eq_some_iff.1 hs
    exact .inr (.inl ⟨m, rfl, hp, rfl⟩)
  | turn =>
    simp only [ServedState.step] at hs
    split_ifs at hs
    obtain ⟨ev, hev, rfl⟩ := Option.map_eq_some_iff.1 hs
    exact .inr (.inr (.inl ⟨ev, rfl, hev, rfl, rfl⟩))
  | endStream =>
    simp only [ServedState.step] at hs
    split_ifs at hs
    cases hs
    exact .inr (.inr (.inr ⟨rfl, by simp, rfl, rfl⟩))
  | listen key w =>
    obtain ⟨waiters, -, rfl⟩ := Option.map_eq_some_iff.1 hs
    exact .inr (.inr (.inr ⟨rfl, by simp, rfl, rfl⟩))
  | hangUp tx =>
    cases hs
    exact .inr (.inr (.inr ⟨rfl, by simp, rfl, rfl⟩))

theorem reachable_serve (h : P.Reachable s.poller) (hs : s.step intoBoxed P V l = some s') :
    P.Reachable s'.poller := by
  rcases serve_cases hs with ⟨item, -, hp, -⟩ | ⟨m, -, hp, -⟩
    | ⟨ev, -, -, hp, -⟩ | ⟨-, -, hp, -⟩
  · exact h.step hp
  · exact h.step hp
  · exact hp ▸ h
  · exact hp ▸ h

end Served

end MessageBus
