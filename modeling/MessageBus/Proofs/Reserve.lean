import MessageBus.Lib.Pool
import MessageBus.Proofs.Bounded
import MessageBus.Reserve

/-!
# Who is woken for a slot

A local receiver's counter counts the permits in the tasks' hands, the messages that run and the
`Response`s on the stream (`Inv.counted`). A task that waits needs one of them to come, a
notification that is stored or about to be given, or one that a task has just been given
(`Served`). A permit dropped unused gives its slot back and notifies nobody, and that is the one
step which can leave a waiter without (`noneStranded_of_heeds`).
-/

namespace MessageBus

variable {ι : Type}

namespace SendTask

variable {r : ι} {xs permits : List (Target ι)}

@[simp] theorem permits_idle : (idle : SendTask ι).permits = [] := rfl

@[simp] theorem permits_sending {stage : SendStage} {x : Target ι} {todo : List (Target ι)} :
    (sending stage x todo).permits = if stage = .holding then [x] else [] := by
  cases stage <;> rfl

@[simp] theorem permits_collecting : (collecting permits xs).permits = permits := rfl

@[simp] theorem permits_dropping : (dropping permits).permits = permits := rfl

@[simp] theorem permits_delivering : (delivering permits).permits = permits := rfl

@[simp] theorem permits_send : (send xs).permits = [] := by cases xs <;> rfl

@[simp] theorem permits_deliver : (deliver xs).permits = xs := by cases xs <;> rfl

@[simp] theorem permits_drop : (drop xs).permits = xs := by cases xs <;> rfl

@[simp] theorem permits_collect : (collect permits xs).permits = permits := by
  cases xs
  · exact permits_deliver
  · rfl

variable [DecidableEq ι]

/-- Where the task is with `reserve` of a local receiver. -/
def stageAt (t : SendTask ι) (r : ι) : Option SendStage :=
  match t with
  | .sending stage (.receiver x) _ => if x = r then some stage else none
  | _ => none

def waitsFor (t : SendTask ι) (r : ι) : Prop :=
  t.stageAt r = some .refused ∨ t.stageAt r = some .parked

@[simp] theorem stageAt_sending {stage : SendStage} {x : Target ι} {todo : List (Target ι)} :
    (sending stage x todo).stageAt r = if x = .receiver r then some stage else none := by
  cases x <;> simp [stageAt]

/-- A task has a stage at the receiver it sends to next, and at no other. -/
theorem eq_sending_of_stageAt {t : SendTask ι} {stage : SendStage}
    (h : t.stageAt r = some stage) : ∃ todo, t = sending stage (.receiver r) todo := by
  unfold stageAt at h
  split at h
  · rename_i stage' q todo
    split_ifs at h with hq
    cases h
    exact ⟨todo, hq ▸ rfl⟩
  · cases h

@[simp] theorem stageAt_idle : (idle : SendTask ι).stageAt r = none := rfl

@[simp] theorem stageAt_collecting : (collecting permits xs).stageAt r = none := rfl

@[simp] theorem stageAt_dropping : (dropping permits).stageAt r = none := rfl

@[simp] theorem stageAt_delivering : (delivering permits).stageAt r = none := rfl

theorem stageAt_send : (send xs).stageAt r = none ∨ (send xs).stageAt r = some .reserving := by
  rcases xs with _ | ⟨_ | _, xs⟩ <;> simp [send, stageAt]
  exact (em _).symm

theorem not_waitsFor_send : ¬ (send xs).waitsFor r := by
  rcases (stageAt_send : (send xs).stageAt r = none ∨ _) with hstage | hstage <;>
    simp [waitsFor, hstage]

@[simp] theorem stageAt_deliver : (deliver xs).stageAt r = none := by cases xs <;> rfl

@[simp] theorem stageAt_drop : (drop xs).stageAt r = none := by cases xs <;> rfl

@[simp] theorem stageAt_collect : (collect permits xs).stageAt r = none := by
  cases xs
  · exact stageAt_deliver
  · rfl

end SendTask

/-- The counter of the receiver is not at rest, or a notification of it is stored or on its way. -/
def ReserveReceiver.Busy (x : ReserveReceiver) : Prop :=
  x.response.permit = true ∨ x.answering = true ∨ x.context.processing ≠ 0

/-- The slots of the counter that no message has taken. -/
def ReserveReceiver.slots (x : ReserveReceiver) : ℤ :=
  x.context.processing.toInt - x.running - x.responses

namespace ReserveState

variable [DecidableEq ι] {limit : ι → UInt64} {s s' : ReserveState ι} {r : ι} {i : ℕ}
  {t t' : SendTask ι}

def held (s : ReserveState ι) (r : ι) : ℕ := (s.tasks.flatMap SendTask.permits).count (.receiver r)

/-- What can wake a task that waits for the receiver: the receiver itself, or a task that has a
notification and has not tried again. -/
def Served (s : ReserveState ι) (r : ι) : Prop :=
  (s.receivers r).Busy ∨ ∃ t ∈ s.tasks, t.stageAt r = some .woken

/-- No task is parked at a receiver that is idle, with no notification stored, on its way or
delivered. -/
def NoneStranded (s : ReserveState ι) : Prop :=
  ∀ r, ∀ t ∈ s.tasks, t.stageAt r = some .parked → s.Served r

/-- Senders reserve with receivers that have slots, and a permit dropped unused is not the last of a
receiver for which a task waits unserved. -/
def Heeds (s : ReserveState ι) : ReserveLabel ι → Prop
  | .tryReserve i _ => ∀ r stage todo, s.tasks[i]? = some (.sending stage (.receiver r) todo) →
      0 < (s.receivers r).context.limit.toInt64
  | .dropPermit i => ∀ r permits, s.tasks[i]? = some (.dropping (.receiver r :: permits)) →
      (s.receivers r).context.processing = 1 → (∃ t ∈ s.tasks, t.waitsFor r) →
      (s.receivers r).response.permit = true ∨ (s.receivers r).answering = true
        ∨ ∃ t ∈ s.tasks, t.stageAt r = some .woken
  | _ => True

structure Inv (s : ReserveState ι) : Prop where
  counted : ∀ r, (s.receivers r).slots = s.held r
  parked : ∀ r, ∀ i ∈ (s.receivers r).response.waiters,
    ∃ t, s.tasks[i]? = some t ∧ t.stageAt r = some .parked
  nodup : ∀ r, (s.receivers r).response.waiters.Nodup
  served : ∀ r, ∀ t ∈ s.tasks, t.waitsFor r → s.Served r

theorem busy_of_pos {x : ReserveReceiver} (h : 0 < x.context.processing.toInt) : x.Busy := by
  refine .inr (.inr fun h0 => ?_)
  rw [h0] at h
  simp at h

theorem held_set (hi : s.tasks[i]? = some t) (t' : SendTask ι) (r : ι) :
    (s.setTask i t').held r + t.permits.count (.receiver r)
      = s.held r + t'.permits.count (.receiver r) := by
  have := (Pool.perm_flatMap_set SendTask.permits t' hi).count_eq (.receiver r)
  simpa [held, setTask] using this

/-- A task moves on that is in no list of waiters, or joins one, and the receivers change with
it. -/
theorem Inv.move (h : s.Inv) (hi : s.tasks[i]? = some t)
    (ht : ∀ r, t.stageAt r ≠ some .parked) {receivers : ι → ReserveReceiver}
    (hslots : ∀ r, (receivers r).slots + t.permits.count (.receiver r)
      = (s.receivers r).slots + t'.permits.count (.receiver r))
    (hwaiters : ∀ r, (receivers r).response.waiters = (s.receivers r).response.waiters
      ∨ (receivers r).response.waiters = (s.receivers r).response.waiters ++ [i]
        ∧ t'.stageAt r = some .parked)
    (hserved : ∀ r, (t'.waitsFor r ∨ ∃ t ∈ s.tasks, t.waitsFor r) →
      Served ⟨receivers, s.tasks.set i t'⟩ r) :
    Inv ⟨receivers, s.tasks.set i t'⟩ := by
  have hlt := (List.getElem?_eq_some_iff.1 hi).1
  have hne : ∀ r, i ∉ (s.receivers r).response.waiters := by
    intro r hj
    obtain ⟨u, hu, hstage⟩ := h.parked r i hj
    rw [hi, Option.some.injEq] at hu
    exact ht r (hu ▸ hstage)
  have hparked : ∀ r, ∀ j ∈ (s.receivers r).response.waiters,
      ∃ u, (s.tasks.set i t')[j]? = some u ∧ u.stageAt r = some .parked := by
    intro r j hj
    obtain ⟨u, hu, hstage⟩ := h.parked r j hj
    have hij : i ≠ j := fun hij => hne r (hij ▸ hj)
    exact ⟨u, by simpa [List.getElem?_set, hij] using hu, hstage⟩
  refine ⟨fun r => ?_, fun r j hj => ?_, fun r => ?_, fun r u hu hwaits => hserved r ?_⟩
  · have h1 := h.counted r
    have h2 := hslots r
    have h3 := held_set hi t' r
    simp only [setTask, held] at h1 h3 ⊢
    omega
  · rcases hwaiters r with hw | ⟨hw, hstage⟩
    · rw [hw] at hj
      exact hparked r j hj
    · rw [hw, List.mem_append, List.mem_singleton] at hj
      rcases hj with hj | rfl
      · exact hparked r j hj
      · exact ⟨t', by simp [hlt], hstage⟩
  · rcases hwaiters r with hw | ⟨hw, -⟩
    · rw [hw]
      exact h.nodup r
    · rw [hw]
      have hi' : ∀ j ∈ (s.receivers r).response.waiters, j ≠ i := fun j hj hji => hne r (hji ▸ hj)
      simpa [List.nodup_append, h.nodup r] using hi'
  · rcases List.mem_or_eq_of_mem_set hu with hu | rfl
    · exact .inr ⟨u, hu, hwaits⟩
    · exact .inl hwaits

omit [DecidableEq ι] in
theorem mem_set_of_ne {u : SendTask ι} (hi : s.tasks[i]? = some t) (hu : u ∈ s.tasks)
    (hut : u ≠ t) : u ∈ s.tasks.set i t' := by
  obtain ⟨j, hj⟩ := List.mem_iff_getElem?.1 hu
  have hij : i ≠ j := by
    rintro rfl
    rw [hi, Option.some.injEq] at hj
    exact hut hj.symm
  exact List.mem_iff_getElem?.2 ⟨j, by simpa [List.getElem?_set, hij] using hj⟩

/-- A task that has no notification of the receiver moves on. -/
theorem Served.set {x : ReserveReceiver} (h : s.Served r) (hi : s.tasks[i]? = some t)
    (ht : t.stageAt r ≠ some .woken) (hbusy : (s.receivers r).Busy → x.Busy) :
    x.Busy ∨ ∃ u ∈ s.tasks.set i t', u.stageAt r = some .woken := by
  rcases h with h | ⟨u, hu, hstage⟩
  · exact .inl (hbusy h)
  · refine .inr ⟨u, mem_set_of_ne hi hu ?_, hstage⟩
    rintro rfl
    exact ht hstage

/-- Nothing but the task changes, and it does not come to wait. -/
theorem Inv.setTask (h : s.Inv) (hi : s.tasks[i]? = some t)
    (ht : ∀ r, t.stageAt r ≠ some .parked ∧ t.stageAt r ≠ some .woken)
    (hpermits : ∀ r, t'.permits.count (.receiver r) = t.permits.count (.receiver r))
    (ht' : ∀ r, ¬ t'.waitsFor r) : (s.setTask i t').Inv := by
  refine h.move hi (fun r => (ht r).1) (fun r => by rw [hpermits]) (fun r => .inl rfl) ?_
  rintro r (hwaits | ⟨u, hu, hwaits⟩)
  · exact absurd hwaits (ht' r)
  · exact (h.served r u hu hwaits).set hi (ht r).2 id

/-- A task moves on at one receiver. -/
theorem Inv.setBoth (h : s.Inv) (hi : s.tasks[i]? = some t)
    (ht : ∀ r, t.stageAt r ≠ some .parked) {q : ι} {x : ReserveReceiver}
    (hslots : x.slots + t.permits.count (.receiver q)
      = (s.receivers q).slots + t'.permits.count (.receiver q))
    (hwaiters : x.response.waiters = (s.receivers q).response.waiters
      ∨ x.response.waiters = (s.receivers q).response.waiters ++ [i]
        ∧ t'.stageAt q = some .parked)
    (hothers : ∀ r, r ≠ q → t'.permits.count (.receiver r) = t.permits.count (.receiver r)
      ∧ t.stageAt r ≠ some .woken ∧ ¬ t'.waitsFor r)
    (hserved : (t'.waitsFor q ∨ ∃ t ∈ s.tasks, t.waitsFor q) →
      x.Busy ∨ ∃ u ∈ s.tasks.set i t', u.stageAt q = some .woken) :
    ((s.setReceiver q x).setTask i t').Inv := by
  have hself : (s.setReceiver q x).receivers q = x := Function.update_self ..
  have hne : ∀ r, r ≠ q → (s.setReceiver q x).receivers r = s.receivers r :=
    fun r hr => Function.update_of_ne hr ..
  refine h.move hi ht (fun r => ?_) (fun r => ?_) fun r hwaits => ?_ <;> by_cases hr : r = q
  · subst hr
    rw [hself, hslots]
  · rw [hne r hr, (hothers r hr).1]
  · subst hr
    rwa [hself]
  · rw [hne r hr]
    exact .inl rfl
  · subst hr
    unfold Served
    rw [hself]
    exact hserved hwaits
  · obtain ⟨-, hwoken, hnot⟩ := hothers r hr
    obtain ⟨u, hu, hwaits⟩ := hwaits.resolve_left hnot
    refine (h.served r u hu hwaits).set hi hwoken ?_
    rw [hne r hr]
    exact id

/-- A task takes a permit: the counter is above zero then. -/
theorem Inv.take {s₁ : ReserveState ι} {got : Bool} {x : Target ι} (h : s.Inv)
    (hi : s.tasks[i]? = some t) (ht : ∀ r, t.stageAt r ≠ some .parked)
    (htarget : ∀ r, t.stageAt r = some .woken → x = .receiver r)
    (hs : s.tryReserve got x = some s₁) (hpermits : t'.permits.Perm (x :: t.permits))
    (ht' : ∀ r, ¬ t'.waitsFor r) : (s₁.setTask i t').Inv := by
  have hcount : ∀ r : ι, t'.permits.count (.receiver r)
      = (x :: t.permits).count (.receiver r) := fun r => hpermits.count_eq _
  cases x with
  | relay =>
    obtain ⟨-, rfl⟩ : got = true ∧ s = s₁ := by simpa [tryReserve] using hs
    exact h.setTask hi (fun r => ⟨ht r, fun hw => by simpa using htarget r hw⟩)
      (fun r => by simp [hcount]) ht'
  | receiver q =>
    obtain ⟨hlt, rfl⟩ : (s.receivers q).context.processing
        < (s.receivers q).context.limit.toInt64 ∧ s.setReceiver q { s.receivers q with
          context.processing := (s.receivers q).context.processing + 1 } = s₁ := by
      simpa [tryReserve, ReceiverContext.tryReserve] using hs
    have hadd := toInt_add_one hlt
    refine h.setBoth hi ht ?_ (.inl rfl) (fun r hr => ⟨?_, fun hw => hr ?_, ht' r⟩) fun _ => ?_
    · simp only [hcount, ReserveReceiver.slots, hadd, List.count_cons_self]
      omega
    · simp [hcount, Ne.symm hr]
    · simpa using (htarget r hw).symm
    · refine .inl (busy_of_pos ?_)
      have hslots := h.counted q
      simp only [ReserveReceiver.slots] at hslots
      simp only [hadd]
      omega

/-- A task is refused by a receiver that has slots: the counter is above zero. -/
theorem Inv.refuse {got : Bool} {x : Target ι} {todo : List (Target ι)} (h : s.Inv)
    (hi : s.tasks[i]? = some t) (ht : ∀ r, t.stageAt r ≠ some .parked)
    (htarget : ∀ r, t.stageAt r = some .woken → x = .receiver r) (hpermits : t.permits = [])
    (hlimit : ∀ r, x = .receiver r → 0 < (s.receivers r).context.limit.toInt64)
    (hs : s.tryReserve got x = none) : (s.setTask i (.sending .refused x todo)).Inv := by
  cases x with
  | relay =>
    exact h.setTask hi (fun r => ⟨ht r, fun hw => by simpa using htarget r hw⟩)
      (fun r => by simp [hpermits])
      fun r => by simp [SendTask.waitsFor]
  | receiver q =>
    have hle : ¬ (s.receivers q).context.processing < (s.receivers q).context.limit.toInt64 := by
      simpa [tryReserve, ReceiverContext.tryReserve] using hs
    have hbusy : (s.receivers q).Busy := by
      refine busy_of_pos ?_
      have hlimit := hlimit q rfl
      rw [Int64.lt_iff_toInt_lt] at hle hlimit
      simp at hlimit
      omega
    have hset : s.setReceiver q (s.receivers q) = s := by simp [setReceiver]
    rw [← hset]
    refine h.setBoth hi ht ?_ (.inl rfl) (fun r hr => ⟨?_, fun hw => hr ?_, ?_⟩)
      fun _ => .inl hbusy
    · simp [hpermits]
    · simp [hpermits]
    · simpa using (htarget r hw).symm
    · simp [SendTask.waitsFor, Ne.symm hr]

/-- A `try_reserve` at the receiver a task sends to: it has its permit after it, or waits. -/
theorem Inv.trySending {got : Bool} {stage : SendStage} {x : Target ι} {todo : List (Target ι)}
    (h : s.Inv) (hi : s.tasks[i]? = some (.sending stage x todo))
    (hstage : stage = .reserving ∨ stage = .woken) (hC : s.Heeds (.tryReserve i got)) :
    (∀ s₁, s.tryReserve got x = some s₁ → (s₁.setTask i (.sending .holding x todo)).Inv)
      ∧ (s.tryReserve got x = none → (s.setTask i (.sending .refused x todo)).Inv) := by
  have ht : ∀ r, (SendTask.sending stage x todo).stageAt r ≠ some .parked := by
    rcases hstage with rfl | rfl <;> simp
  have htarget : ∀ r, (SendTask.sending stage x todo).stageAt r = some .woken →
      x = .receiver r := by simp +contextual
  have hpermits : (SendTask.sending stage x todo).permits = [] := by
    rcases hstage with rfl | rfl <;> rfl
  constructor
  · intro s₁ htry
    refine h.take hi ht htarget htry ?_ (by simp [SendTask.waitsFor])
    rw [hpermits]
    rfl
  · exact fun htry => h.refuse hi ht htarget hpermits (fun r hr => hC r _ _ (hr ▸ hi)) htry

theorem inv_tryReserve {got : Bool} (h : s.Inv) (hs : s.step (.tryReserve i got) = some s')
    (hC : s.Heeds (.tryReserve i got)) : s'.Inv := by
  simp only [step] at hs
  split at hs
  · have hsending := h.trySending ‹_› (.inl rfl) hC
    split at hs <;> rename_i htry <;> cases hs
    · exact hsending.1 _ htry
    · exact hsending.2 htry
  · have hsending := h.trySending ‹_› (.inr rfl) hC
    split at hs <;> rename_i htry <;> cases hs
    · exact hsending.1 _ htry
    · exact hsending.2 htry
  · rename_i permits x todo hi
    split at hs <;> rename_i htry <;> cases hs
    · refine h.take hi (by simp) (by simp) htry ?_ (by simp [SendTask.waitsFor])
      simp
    · exact h.setTask hi (by simp) (by simp) (by simp [SendTask.waitsFor])
  · cases hs

theorem inv_poll (h : s.Inv) (hs : s.step (.poll i) = some s') : s'.Inv := by
  simp only [step] at hs
  split at hs
  · rename_i r todo hi
    cases hs
    have hserved : s.Served r := h.served r _ (List.mem_of_getElem? hi) (.inl (by simp))
    refine h.setBoth hi (by simp) ?_ ?_ (fun q hq => ?_) fun _ => ?_ <;>
      by_cases hp : (s.receivers r).response.permit = true
    · simp [Notify.notified, hp, ReserveReceiver.slots]
    · simp [Notify.notified, hp, ReserveReceiver.slots]
    · simp [Notify.notified, hp]
    · simp [Notify.notified, hp]
    · simp [Notify.notified, hp, SendTask.waitsFor, Ne.symm hq]
    · simp [Notify.notified, hp, SendTask.waitsFor, Ne.symm hq]
    · refine .inr ⟨_, List.mem_set (List.getElem?_eq_some_iff.1 hi).1 _, ?_⟩
      simp [Notify.notified, hp]
    · refine hserved.set hi (by simp) fun hbusy => ?_
      simpa [ReserveReceiver.Busy, Notify.notified, hp] using hbusy
  · rename_i todo hi
    cases hs
    exact h.setTask hi (by simp) (by simp) (by simp [SendTask.waitsFor])
  · cases hs

/-- A task uses up a permit, or drops it where that leaves the waiters served. -/
theorem Inv.give {x : Target ι} {receivers : ι → ReserveReceiver} (h : s.Inv)
    (hi : s.tasks[i]? = some t) (ht : ∀ r, t.stageAt r ≠ some .parked ∧ t.stageAt r ≠ some .woken)
    (hpermits : t.permits = x :: t'.permits) (ht' : ∀ r, ¬ t'.waitsFor r)
    (hslots : ∀ r, (receivers r).slots + [x].count (.receiver r) = (s.receivers r).slots)
    (hwaiters : ∀ r, (receivers r).response.waiters = (s.receivers r).response.waiters)
    (hbusy : ∀ r, (∃ u ∈ s.tasks, u.waitsFor r) → (receivers r).Busy
      ∨ ∃ u ∈ s.tasks, u.stageAt r = some .woken) :
    Inv ⟨receivers, s.tasks.set i t'⟩ := by
  refine h.move hi (fun r => (ht r).1) (fun r => ?_) (fun r => .inl (hwaiters r)) fun r hwaits => ?_
  · have := hslots r
    rw [hpermits, ← List.singleton_append, List.count_append]
    push_cast
    omega
  · rcases hbusy r (hwaits.resolve_left (ht' r)) with hbusy | ⟨u, hu, hstage⟩
    · exact .inl hbusy
    · refine .inr ⟨u, mem_set_of_ne hi hu ?_, hstage⟩
      rintro rfl
      exact (ht r).2 hstage

theorem receivers_push (x : Target ι) (r : ι) :
    ((s.push x).receivers r).slots + [x].count (.receiver r) = (s.receivers r).slots
      ∧ ((s.push x).receivers r).response.waiters = (s.receivers r).response.waiters
      ∧ (((s.push x).receivers r).Busy ↔ (s.receivers r).Busy) := by
  rcases x with q | _
  · by_cases hr : r = q
    · subst hr
      simp [push, setReceiver, ReserveReceiver.slots, ReserveReceiver.Busy]
      omega
    · simp [push, setReceiver, Function.update_of_ne hr, Ne.symm hr]
  · simp [push]

theorem inv_push (h : s.Inv) (hs : s.step (.push i) = some s') : s'.Inv := by
  have hgive : ∀ t t' x, s.tasks[i]? = some t →
      (∀ r, t.stageAt r ≠ some .parked ∧ t.stageAt r ≠ some .woken) →
      t.permits = x :: t'.permits → (∀ r, ¬ t'.waitsFor r) → ((s.push x).setTask i t').Inv := by
    intro t t' x hi ht hpermits ht'
    have hpush := receivers_push (s := s) x
    have htasks : (s.push x).tasks = s.tasks := by cases x <;> rfl
    simp only [ReserveState.setTask, htasks]
    refine h.give hi ht hpermits ht' (fun r => (hpush r).1) (fun r => (hpush r).2.1) ?_
    rintro r ⟨u, hu, hwaits⟩
    exact (h.served r u hu hwaits).imp_left (hpush r).2.2.2
  simp only [step] at hs
  split at hs
  · rename_i x todo hi
    cases hs
    exact hgive _ _ x hi (by simp) (by simp) fun _ => SendTask.not_waitsFor_send
  · rename_i x permits hi
    cases hs
    exact hgive _ _ x hi (by simp) (by simp) (by simp [SendTask.waitsFor])
  · cases hs

theorem inv_dropPermit (h : s.Inv) (hs : s.step (.dropPermit i) = some s')
    (hC : s.Heeds (.dropPermit i)) : s'.Inv := by
  simp only [step] at hs
  split at hs
  · rename_i x permits hi
    cases hs
    rcases x with q | _
    · have hheld : 0 < (s.receivers q).context.processing.toInt := by
        have h1 := h.counted q
        have h2 := held_set hi .idle q
        simp [ReserveReceiver.slots] at h1 h2
        omega
      have hsub := toInt_sub_one hheld
      refine h.give hi (by simp) (x := .receiver q) (by simp) (by simp [SendTask.waitsFor])
        (fun r => ?_) (fun r => ?_) fun r hwaits => ?_ <;> by_cases hr : r = q
      · subst hr
        simp [permitDrop, setReceiver, ReserveReceiver.slots, hsub]
        omega
      · simp [permitDrop, setReceiver, Function.update_of_ne hr, Ne.symm hr]
      · subst hr
        simp [permitDrop, setReceiver]
      · simp [permitDrop, setReceiver, Function.update_of_ne hr]
      · subst hr
        by_cases hone : (s.receivers r).context.processing = 1
        · rcases hC r permits hi hone hwaits with hp | ha | hw
          · exact .inl (.inl (by simpa [permitDrop, setReceiver] using hp))
          · exact .inl (.inr (.inl (by simpa [permitDrop, setReceiver] using ha)))
          · exact .inr hw
        · refine .inl (.inr (.inr fun hzero => hone (Int64.toInt_inj.1 ?_)))
          have hzero : ((s.receivers r).context.processing - 1).toInt = 0 := by
            simpa [permitDrop, setReceiver] using congrArg Int64.toInt hzero
          have hval : (1 : Int64).toInt = 1 := rfl
          omega
      · obtain ⟨u, hu, hwaits⟩ := hwaits
        simp only [permitDrop, setReceiver, Function.update_of_ne hr]
        exact h.served r u hu hwaits
    · exact h.setTask hi (by simp) (by simp) (by simp [SendTask.waitsFor])
  · cases hs

/-- The handlers and the loop work at a receiver that stays busy. -/
theorem Inv.setReceiver {x : ReserveReceiver} (h : s.Inv) (hslots : x.slots = (s.receivers r).slots)
    (hwaiters : x.response.waiters = (s.receivers r).response.waiters)
    (hbusy : (s.receivers r).Busy → x.Busy) : (s.setReceiver r x).Inv := by
  have hall : ∀ q, ((s.setReceiver r x).receivers q).slots = (s.receivers q).slots
      ∧ ((s.setReceiver r x).receivers q).response.waiters = (s.receivers q).response.waiters
      ∧ ((s.receivers q).Busy → ((s.setReceiver r x).receivers q).Busy) := by
    intro q
    by_cases hq : q = r
    · subst hq
      simpa [ReserveState.setReceiver] using ⟨hslots, hwaiters, hbusy⟩
    · simp [ReserveState.setReceiver, Function.update_of_ne hq]
  refine ⟨fun q => (hall q).1.trans (h.counted q), fun q j hj => ?_, fun q => ?_,
    fun q u hu hwaits => (h.served q u hu hwaits).imp_left (hall q).2.2⟩
  · rw [(hall q).2.1] at hj
    exact h.parked q j hj
  · rw [(hall q).2.1]
    exact h.nodup q

theorem inv_complete (h : s.Inv) (hs : s.step (.complete r) = some s') : s'.Inv := by
  simp only [step] at hs
  split at hs
  · rename_i n hn
    cases hs
    refine h.setReceiver ?_ rfl id
    simp [ReserveReceiver.slots, hn]
    omega
  · cases hs

theorem inv_fetchSub (h : s.Inv) (hs : s.step (.fetchSub r) = some s') : s'.Inv := by
  simp only [step] at hs
  split at hs
  · rename_i n hanswering hn
    cases hs
    have hsub : ((s.receivers r).context.processing - 1).toInt
        = (s.receivers r).context.processing.toInt - 1 := by
      refine toInt_sub_one ?_
      have hcounted := h.counted r
      simp only [ReserveReceiver.slots] at hcounted
      omega
    refine h.setReceiver ?_ rfl fun _ => .inr (.inl rfl)
    simp [ReserveReceiver.slots, hn, hsub]
    omega
  · cases hs

/-- The two steps of the loop are the turn of a `Response`. -/
theorem context_turn {R E B : Type} [StdSyncSendError E] (intoBoxed : R → B)
    {s₁ s₂ : ReserveState ι} (h₁ : s.step (.fetchSub r) = some s₁)
    (h₂ : s₁.step (.notifyOne r) = some s₂) (waiters : Slab Waiter) (chans : Channels R E B)
    (mid : UInt64) (res : Except (Error Unit E) R) :
    (s₂.receivers r).context = (handleEvent intoBoxed ⟨waiters, (s.receivers r).context⟩ chans
      (.response mid res)).wrapper.context := by
  simp only [step] at h₁ h₂
  split at h₁
  · cases h₁
    split_ifs at h₂
    cases h₂
    simp only [handleEvent, context_response]
    simp [setReceiver]
  · cases h₁

theorem Inv.sending_of_waits (h : s.Inv) (hi : i ∈ (s.receivers r).response.waiters) :
    ∃ todo, s.tasks[i]? = some (.sending .parked (.receiver r) todo) := by
  obtain ⟨t, ht, hstage⟩ := h.parked r i hi
  obtain ⟨todo, rfl⟩ := SendTask.eq_sending_of_stageAt hstage
  exact ⟨todo, ht⟩

/-- A task waits for one receiver. -/
theorem Inv.waits_unique (h : s.Inv) {q : ι} (hq : i ∈ (s.receivers q).response.waiters)
    (hr : i ∈ (s.receivers r).response.waiters) : q = r := by
  obtain ⟨todo, hsending⟩ := h.sending_of_waits hq
  obtain ⟨todo', hsending'⟩ := h.sending_of_waits hr
  rw [hsending] at hsending'
  cases hsending'
  rfl

/-- The first of those that wait is woken. -/
theorem Inv.wake {w : ℕ} {ws : List ℕ} (h : s.Inv)
    (hw : (s.receivers r).response.waiters = w :: ws) {x : ReserveReceiver}
    (hslots : x.slots = (s.receivers r).slots) (hwaiters : x.response.waiters = ws) :
    Inv ⟨Function.update s.receivers r x, s.tasks.modify w .wake⟩ := by
  have hmem : w ∈ (s.receivers r).response.waiters := by simp [hw]
  obtain ⟨todo, hparked⟩ := h.sending_of_waits hmem
  have hlt := (List.getElem?_eq_some_iff.1 hparked).1
  have hset : s.tasks.modify w .wake = s.tasks.set w (.sending .woken (.receiver r) todo) := by
    rw [List.modify_eq_set_getElem?, hparked]
    rfl
  have hnodup := h.nodup r
  rw [hw, List.nodup_cons] at hnodup
  have hne : ∀ q, ∀ j ∈ (Function.update s.receivers r x q).response.waiters,
      w ≠ j ∧ j ∈ (s.receivers q).response.waiters := by
    intro q j hj
    by_cases hq : q = r
    · subst hq
      rw [Function.update_self, hwaiters] at hj
      exact ⟨fun hwj => hnodup.1 (hwj ▸ hj), by simp [hw, hj]⟩
    · rw [Function.update_of_ne hq] at hj
      exact ⟨fun hwj => hq (h.waits_unique hj (hwj ▸ hmem)), hj⟩
  rw [hset]
  refine ⟨fun q => ?_, fun q j hj => ?_, fun q => ?_, fun q u hu hwaits => ?_⟩
  · have h1 := h.counted q
    have h2 := held_set hparked (.sending .woken (.receiver r) todo) q
    by_cases hq : q = r
    · subst hq
      simp [ReserveState.setTask, held] at h1 h2 ⊢
      omega
    · simp [ReserveState.setTask, held, Function.update_of_ne hq] at h1 h2 ⊢
      omega
  · obtain ⟨hwj, hj⟩ := hne q j hj
    obtain ⟨u, hu, hstage⟩ := h.parked q j hj
    exact ⟨u, by simpa [List.getElem?_set, hwj] using hu, hstage⟩
  · by_cases hq : q = r
    · subst hq
      simpa [hwaiters] using hnodup.2
    · simpa [Function.update_of_ne hq] using h.nodup q
  · by_cases hq : q = r
    · subst hq
      exact .inr ⟨_, List.mem_set hlt _, by simp⟩
    · rcases List.mem_or_eq_of_mem_set hu with hu | rfl
      · refine (h.served q u hu hwaits).set hparked (by simp) ?_
        simp only [Function.update_of_ne hq]
        exact id
      · simp [SendTask.waitsFor, Ne.symm hq] at hwaits

theorem inv_notifyOne (h : s.Inv) (hs : s.step (.notifyOne r) = some s') : s'.Inv := by
  simp only [step] at hs
  split at hs
  · rename_i hanswering
    unfold Notify.notifyOne at hs
    split at hs
    · cases hs
      exact h.setReceiver rfl rfl fun _ => .inl rfl
    · rename_i w ws hw
      cases hs
      exact h.wake hw rfl rfl
  · cases hs

theorem inv_step {l : ReserveLabel ι} (h : s.Inv) (hs : s.step l = some s') (hC : s.Heeds l) :
    s'.Inv := by
  have hidle : ∀ i t', s.tasks[i]? = some .idle → t'.permits = [] → (∀ r, ¬ t'.waitsFor r) →
      (s.setTask i t').Inv := fun i t' hi hpermits ht' =>
    h.setTask hi (by simp) (by simp [hpermits]) ht'
  cases l with
  | spawn =>
    cases hs
    have hheld : ∀ r, held { s with tasks := s.tasks ++ [.idle] } r = s.held r := by simp [held]
    refine ⟨fun r => (h.counted r).trans (by rw [hheld]), fun r j hj => ?_, h.nodup,
      fun r t ht hwaits => ?_⟩
    · obtain ⟨t, ht, hstage⟩ := h.parked r j hj
      have hlt := (List.getElem?_eq_some_iff.1 ht).1
      exact ⟨t, by rwa [List.getElem?_append_left hlt], hstage⟩
    · rcases List.mem_append.1 ht with ht | ht
      · refine (h.served r t ht hwaits).imp_right ?_
        rintro ⟨u, hu, hstage⟩
        exact ⟨u, List.mem_append_left _ hu, hstage⟩
      · obtain rfl := List.mem_singleton.1 ht
        simp [SendTask.waitsFor] at hwaits
  | send i rs =>
    simp only [step] at hs
    split at hs
    · cases hs
      exact hidle i _ ‹_› (by simp) fun _ => SendTask.not_waitsFor_send
    · cases hs
  | trySend i rs =>
    simp only [step] at hs
    split at hs
    · cases hs
      exact hidle i _ ‹_› (by simp) (by simp [SendTask.waitsFor])
    · cases hs
  | tryReserve i got => exact inv_tryReserve h hs hC
  | poll i => exact inv_poll h hs
  | push i => exact inv_push h hs
  | dropPermit i => exact inv_dropPermit h hs hC
  | complete r => exact inv_complete h hs
  | fetchSub r => exact inv_fetchSub h hs
  | notifyOne r => exact inv_notifyOne h hs

theorem inv_start : (start limit).Inv where
  counted r := by simp [start, ReserveReceiver.slots, held, ReceiverContext.new]
  parked r i hi := by simp [start, Notify.new] at hi
  nodup r := by simp [start, Notify.new]
  served r t ht := by simp [start] at ht

/-- Where no dropped permit passes a waiter over, nobody is left parked at an idle receiver. -/
theorem noneStranded_of_heeds (limit : ι → UInt64) (ls : List (ReserveLabel ι))
    (h : (reserveRuns limit).Throughout Heeds ls) : (reserveRuns limit).Always NoneStranded ls :=
  Lts.alwaysFrom_of_throughoutFrom (J := Inv)
    (fun _ h r t ht hstage => h.served r t ht (.inr hstage))
    (fun _ _ _ h hs hC => inv_step h hs hC) inv_start h

/-- A task that is refused waits for the message of another, whose `Response` wakes it. -/
theorem noneStranded_of_heeds_handover : (reserveRuns fun _ : Unit => 1).Always NoneStranded
    [.spawn, .spawn, .send 0 [.receiver ()], .tryReserve 0 true, .send 1 [.receiver ()],
      .tryReserve 1 true, .poll 1, .push 0, .complete (), .fetchSub (), .notifyOne (),
      .tryReserve 1 true] := by
  refine noneStranded_of_heeds _ _ ?_
  have hreserve : ∀ (s : ReserveState Unit) (i : ℕ) (got : Bool),
      (s.receivers ()).context.limit = 1 → s.Heeds (.tryReserve i got) := by
    rintro s i got hlimit ⟨⟩ stage todo -
    rw [hlimit]
    decide
  unfold Lts.Throughout
  iterate 12
    refine .cons (by rfl) ?_ ?_
    · first | exact trivial | exact hreserve _ _ _ rfl
  exact trivial

/-- A `try_send` that finds its second receiver full gives the slot of the first one back without a
notification: the task parked there stays so, and the receiver is idle. -/
theorem dropped_permit_strands_waiter : ¬ (reserveRuns fun _ : Bool => 1).Always NoneStranded
    [.spawn, .spawn, .spawn, .send 0 [.receiver true], .tryReserve 0 true,
      .trySend 1 [.receiver false, .receiver true], .tryReserve 1 true,
      .send 2 [.receiver false], .tryReserve 2 true, .poll 2, .tryReserve 1 true,
      .dropPermit 1] := by
  intro h
  rcases h.last rfl false (.sending .parked (.receiver false) []) (by decide) rfl with
    (hpermit | hanswering | hcount) | hwoken
  · exact absurd hpermit (by decide)
  · exact absurd hanswering (by decide)
  · exact hcount rfl
  · exact absurd hwoken (by decide)

end ReserveState

end MessageBus
