import MessageBus.Proofs.Writers
import MessageBus.Reconnect

/-!
# What the writer task does behind a close

The marker of `Action::Close` ends the inner loop alone. What stops the outer one is the `unwrap`
of the `Pause` behind it, where nobody listens to the relay's events any more: in a run in which
each such `Pause` fails, the task does nothing once it has taken a marker.
-/

namespace MessageBus

variable {S : Type}

/-- What there is to see of the task. -/
inductive TcpNote (S : Type) where
  | connection
  | ready
  | item (r : ProtocolItem S)
  /-- The marker of a close is taken. -/
  | marker

/-- Once a marker is taken, no connection is, no `Ready` is told and no item is written. -/
def StaysClosed (log : List (TcpNote S)) : Prop :=
  ∀ pre post, log = pre ++ .marker :: post → ∀ x ∈ post, x = .marker

namespace TcpTask

/-- What the writer's step from one place to the next shows. -/
def takes (pc : TcpPc S) : List (TcpNote S) :=
  match pc with
  | .writing _ r _ => [.item r]
  | .connecting => [.marker]
  | _ => []

def notes (s : TcpTask S) (l : TcpTaskLabel S) (s' : TcpTask S) : List (TcpNote S) :=
  match l with
  | .write .recv => takes s'.writer.pc
  | .attempt true => [.connection]
  | .tell => if s.tell = .ready ∧ s'.tell = .nothing then [.ready] else []
  | _ => []

/-- The `Pause` behind a marker finds nobody at the event channel. -/
def Unheard (p : TcpTask S × List (TcpNote S)) (l : TcpTaskLabel S) : Prop :=
  l = .tell → p.1.tell = .pause → p.2.getLast? = some .marker → p.1.eventReceiver = false

variable [SharedMessage S] {serverMode : Bool} {c : Codec S} {cbor : PacketCbor}
  {s s' : TcpTask S} {log : List (TcpNote S)} {l : TcpTaskLabel S}

/-- Everything a step does to the writer. -/
theorem writer_step (hs : s.step serverMode c cbor l = some s') :
    (∃ wl, s.writer.step c cbor wl = some s'.writer) ∨ s'.writer = s.writer := by
  cases l with
  | write wl =>
    have hwriter : ∀ {f : TcpWriter S → TcpTask S}, (∀ w, (f w).writer = w) →
        (s.writer.step c cbor wl).map f = some s' →
        ∃ wl, s.writer.step c cbor wl = some s'.writer := by
      intro f hf h
      obtain ⟨w, hw, rfl⟩ := Option.map_eq_some_iff.1 h
      exact ⟨wl, by rw [hf, hw]⟩
    cases wl <;> simp only [step] at hs <;> (try cases hs) <;> split_ifs at hs <;>
      exact .inl (hwriter (fun _ => rfl) hs)
  | outer ok =>
    simp only [step, outer] at hs
    split_ifs at hs
    · obtain ⟨w, hw, rfl⟩ := Option.map_eq_some_iff.1 hs
      exact .inl ⟨_, hw⟩
    · cases hs
      exact .inr rfl
  | attempt ok =>
    simp only [step, attempt] at hs
    split_ifs at hs
    · obtain ⟨w, hw, rfl⟩ := Option.map_eq_some_iff.1 hs
      exact .inl ⟨_, hw⟩
    · cases hs
      exact .inr rfl
  | tell =>
    simp only [step] at hs
    split at hs <;> cases hs
    · exact .inr rfl
    · unfold emit
      split_ifs <;> exact .inr rfl
    · unfold emit
      split_ifs <;> exact .inr rfl
  | dropStreamReceiver | dropEventReceiver =>
    cases hs
    exact .inr rfl

/-- The task's writer is one of those that keep the queue's order, whatever it tells to whom. -/
theorem writer_reachable (h : (tcpTask serverMode c cbor).Reachable s) :
    (tcpWriter c cbor).Reachable s.writer := by
  refine Lts.invariant (J := fun s => (tcpWriter c cbor).Reachable s.writer) .start ?_ h
  intro s l s' ih hs
  rcases writer_step hs with ⟨wl, hw⟩ | hw
  · exact ih.step hw
  · rwa [hw]

/-- No marker is taken, or the last note is the first one, and the task is at the `Pause` behind it
or past it. -/
def Stopped (s : TcpTask S) (log : List (TcpNote S)) : Prop :=
  TcpNote.marker ∉ log ∨ ∃ pre, log = pre ++ [.marker] ∧ TcpNote.marker ∉ pre ∧
    (s.tell = .pause ∨ s.tell = .panicked)

omit [SharedMessage S] in
theorem Stopped.staysClosed (h : Stopped s log) : StaysClosed log := by
  intro pre post hlog x hx
  rcases h with h | ⟨pre', hlog', hpre, -⟩
  · exact absurd (hlog ▸ by simp) h
  · rcases List.eq_nil_or_concat post with rfl | ⟨post', y, rfl⟩
    · cases hx
    · rw [hlog', List.concat_eq_append, ← List.cons_append, ← List.append_assoc] at hlog
      exact absurd ((List.append_inj' hlog rfl).1 ▸ by simp) hpre

/-- A marker is noted where the inner loop ends by it. -/
theorem of_marker_mem (hs : s.step serverMode c cbor l = some s')
    (h : TcpNote.marker ∈ s.notes l s') : s.notes l s' = [.marker] ∧ s'.tell = .pause := by
  cases l with
  | write wl =>
    cases wl with
    | recv =>
      simp only [step] at hs
      split_ifs at hs
      obtain ⟨w, -, rfl⟩ := Option.map_eq_some_iff.1 hs
      simp only [notes, takes] at h ⊢
      split at h
      · simp at h
      · rename_i hpc
        simp [hpc, TcpPc.isConnecting]
      · cases h
    | _ => cases h
  | attempt ok => cases ok <;> simp [notes] at h
  | tell =>
    simp only [notes] at h
    split_ifs at h <;> simp at h
  | _ => cases h

/-- At a `Pause` that fails, and past it, the task does nothing. -/
theorem stays_stopped (htell : s.tell = .pause ∨ s.tell = .panicked)
    (hs : s.step serverMode c cbor l = some s')
    (hheard : l = .tell → s.tell = .pause → s.eventReceiver = false) :
    s.notes l s' = [] ∧ (s'.tell = .pause ∨ s'.tell = .panicked) := by
  have hne : s.tell ≠ .nothing := by rcases htell with h | h <;> simp [h]
  cases l with
  | write wl =>
    cases wl <;> simp only [step, if_neg hne] at hs <;> try cases hs
    split_ifs at hs
    obtain ⟨w, -, rfl⟩ := Option.map_eq_some_iff.1 hs
    exact ⟨rfl, htell⟩
  | outer ok | attempt ok => simp [step, hne] at hs
  | tell =>
    rcases htell with htell | htell <;> simp only [step, htell] at hs <;> cases hs
    refine ⟨by simp [notes, htell], .inr ?_⟩
    simp [emit, hheard rfl htell]
  | dropStreamReceiver | dropEventReceiver =>
    cases hs
    exact ⟨rfl, htell⟩

theorem stopped_step (h : Stopped s log) (hs : s.step serverMode c cbor l = some s')
    (hC : Unheard (s, log) l) : Stopped s' (log ++ s.notes l s') := by
  rcases h with h | ⟨pre, rfl, hpre, htell⟩
  · by_cases hm : TcpNote.marker ∈ s.notes l s'
    · obtain ⟨hnotes, htell⟩ := of_marker_mem hs hm
      exact .inr ⟨log, by rw [hnotes], h, .inl htell⟩
    · exact .inl (by simp [h, hm])
  · obtain ⟨hnotes, htell'⟩ := stays_stopped htell hs fun hl ht => hC hl ht (by simp)
    exact .inr ⟨pre, by rw [hnotes, List.append_nil], hpre, htell'⟩

/-- In a run in which every `Pause` behind a marker fails, nothing follows the first one taken. -/
theorem staysClosed_of_unheard (serverMode : Bool) (c : Codec S) (cbor : PacketCbor)
    (ls : List (TcpTaskLabel S))
    (h : ((tcpTask serverMode c cbor).logged notes).Throughout Unheard ls) :
    ((tcpTask serverMode c cbor).logged notes).Always (fun p => StaysClosed p.2) ls := by
  refine Lts.alwaysFrom_of_throughoutFrom (J := fun p => Stopped p.1 p.2)
    (fun _ h => h.staysClosed) (fun p l p' hp hs hC => ?_) (.inl (List.not_mem_nil)) h
  obtain ⟨s', hs', rfl⟩ := Option.map_eq_some_iff.1 hs
  exact stopped_step hp hs' hC

section Flag

/-- A connection with what is told of it, and a close. -/
def toMarker : List (TcpTaskLabel Flag) :=
  [.outer true, .attempt true, .tell, .tell, .write (.put none), .write .recv]

/-- The relay's loop has ended before the `Pause`. -/
theorem staysClosed_unheard_pause :
    ((tcpTask true Flag.codec flushCbor).logged notes).Always (fun p => StaysClosed p.2)
      (toMarker ++ [.dropEventReceiver, .tell]) := by
  refine staysClosed_of_unheard true Flag.codec flushCbor _ ?_
  unfold Lts.Throughout
  iterate 8
    refine .cons (by rfl) ?_ ?_
    · intro hl ht _
      first
        | rfl
        | (cases hl; done)
        | exact absurd (show TcpTell.stream = .pause from ht) (by decide)
        | exact absurd (show TcpTell.ready = .pause from ht) (by decide)
  exact trivial

/-- The rest of a run in which the relay's loop has not ended yet: a `Flush` is queued behind the
marker, and there is another connection. -/
def behindMarker : List (TcpTaskLabel Flag) :=
  [.write (.put (some (.action .flush))), .tell, .attempt true, .tell, .tell, .write .recv]

/-- In either mode the next connection is taken, a `Ready` is told and the item is written. -/
theorem reconnects_behind_marker :
    ¬ ((tcpTask true Flag.codec flushCbor).logged notes).Always (fun p => StaysClosed p.2)
        (toMarker ++ behindMarker) ∧
      ¬ ((tcpTask false Flag.codec flushCbor).logged notes).Always (fun p => StaysClosed p.2)
        (toMarker ++ behindMarker) := by
  have hlog : ¬ StaysClosed ([.connection, .ready, .marker, .connection, .ready,
      .item (.action .flush)] : List (TcpNote Flag)) := fun h =>
    nomatch h [.connection, .ready] _ rfl .connection (List.mem_cons_self ..)
  exact ⟨fun h => hlog (h.last rfl), fun h => hlog (h.last rfl)⟩

end Flag

end TcpTask

end MessageBus
