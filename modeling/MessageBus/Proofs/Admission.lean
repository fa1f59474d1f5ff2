import MessageBus.Admission

/-!
# When a relay's limit holds for tasks side by side

As long as all permits of a tag are of the context that is entered (`Tidy`), its counter is the
number of the permits. An `insert` over a counter that is in use leaves its permits behind, and a
`compare_exchange` on a context that was replaced adds a permit that the entered counter misses.
-/

namespace MessageBus

namespace TagState

variable {t : TagState}

/-- The permits are within the limit, and the counter is their number. -/
def Admitted (t : TagState) : Prop := t.permits.length ≤ 16 ∧ t.counter = t.permits.length

structure Tidy (t : TagState) : Prop where
  admitted : t.Admitted
  limits : ∀ r ∈ t.contexts, r.limit = 16
  absent : t.entry = none → t.contexts = []
  entered : ∀ a ∈ t.permits, t.entry = some a

theorem tidy_empty : empty.Tidy :=
  ⟨⟨Nat.zero_le _, rfl⟩, by simp [empty], fun _ => rfl, by simp [empty]⟩

theorem counter_of_entry {a : ℕ} {r : RelayReceiverContext} (ha : t.entry = some a)
    (hr : t.contexts[a]? = some r) : t.counter = r.processing.toNat := by
  simp [counter, ha, hr]

@[simp] theorem counter_insert (t : TagState) : t.insert.counter = 0 := by
  simp [counter, insert, RelayReceiverContext.new]

/-- An `insert` keeps the counter right exactly if no permit is out. -/
theorem admitted_insert (h : t.Tidy) : t.insert.Admitted ↔ t.counter = 0 := by
  rw [h.admitted.2, Admitted, counter_insert]
  show t.permits.length ≤ 16 ∧ 0 = t.permits.length ↔ _
  omega

theorem tidy_insert (h : t.Tidy) (h0 : t.counter = 0) : t.insert.Tidy := by
  have hnil : t.permits = [] := List.length_eq_zero_iff.1 (h.admitted.2 ▸ h0)
  refine ⟨(admitted_insert h).2 h0, ?_, by simp [insert], ?_⟩
  · show ∀ r ∈ t.contexts ++ [.new 16], r.limit = 16
    rw [List.forall_mem_append, List.forall_mem_singleton]
    exact ⟨h.limits, rfl⟩
  · show ∀ a ∈ t.permits, _
    simp [hnil]

/-- The context that is entered, or another one, after a change to the context `a`. -/
theorem counter_set {a : ℕ} {r r' : RelayReceiverContext} {permits : List ℕ}
    (hr : t.contexts[a]? = some r) :
    counter { t with contexts := t.contexts.set a r', permits }
      = if t.entry = some a then r'.processing.toNat else t.counter := by
  obtain ⟨hlt, -⟩ := List.getElem?_eq_some_iff.1 hr
  unfold counter
  dsimp only
  rcases he : t.entry with _ | b
  · simp
  · by_cases hab : a = b
    · subst hab
      simp [hlt]
    · have hba : ¬ b = a := fun h => hab h.symm
      simp [List.getElem?_set_ne hab, hba]

theorem limits_set (h : t.Tidy) {a : ℕ} {r : RelayReceiverContext} (n : UInt64)
    (hr : t.contexts[a]? = some r) :
    ∀ x ∈ t.contexts.set a { r with processing := n }, x.limit = 16 := by
  intro x hx
  rcases List.mem_or_eq_of_mem_set hx with hx | rfl
  · exact h.limits x hx
  · exact h.limits r (List.mem_of_getElem? hr)

theorem absent_set (h : t.Tidy) {a : ℕ} {r : RelayReceiverContext} (r' : RelayReceiverContext)
    (hr : t.contexts[a]? = some r) : t.entry = none → t.contexts.set a r' = [] := by
  intro he
  rw [h.absent he] at hr
  cases hr

variable {a : ℕ} {r : RelayReceiverContext}

theorem toNat_succ {n : UInt64} (h : n < 16) : (n + 1).toNat = n.toNat + 1 := by
  have := UInt64.lt_iff_toNat_lt.1 h
  rw [UInt64.toNat_add]
  have h16 : (16 : UInt64).toNat = 16 := rfl
  have h1 : (1 : UInt64).toNat = 1 := rfl
  omega

/-- A `compare_exchange` keeps the counter right exactly on the context that is entered. -/
theorem admitted_grant (h : t.Tidy) (hr : t.contexts[a]? = some r) (hlt : r.processing < 16) :
    (t.grant a r r.processing).Admitted ↔ t.entry = some a := by
  have hcount : (t.grant a r r.processing).counter = _ := counter_set hr
  obtain ⟨hle, hadm⟩ := h.admitted
  have hnat := UInt64.lt_iff_toNat_lt.1 hlt
  have h16 : (16 : UInt64).toNat = 16 := rfl
  rw [Admitted, hcount]
  simp only [grant, List.length_append, List.length_singleton, toNat_succ hlt]
  by_cases he : t.entry = some a
  · have := counter_of_entry he hr
    simp only [he, if_true, iff_true]
    omega
  · simp only [he, if_false, iff_false]
    omega

theorem tidy_grant (h : t.Tidy) (hr : t.contexts[a]? = some r) (hlt : r.processing < 16)
    (he : t.entry = some a) : (t.grant a r r.processing).Tidy := by
  refine ⟨(admitted_grant h hr hlt).2 he, limits_set h _ hr, absent_set h _ hr, ?_⟩
  show ∀ b ∈ t.permits ++ [a], t.entry = some b
  rw [List.forall_mem_append, List.forall_mem_singleton]
  exact ⟨h.entered, he⟩

theorem tidy_drop (h : t.Tidy) (hr : t.contexts[a]? = some r) (ha : a ∈ t.permits) :
    (t.drop a r).Tidy := by
  have he := h.entered a ha
  have hlen := List.length_erase_of_mem ha
  have hpos := List.length_pos_of_mem ha
  have hcount : (t.drop a r).counter = _ := counter_set hr
  have hsub : (r.processing - 1).toNat + 1 = r.processing.toNat := by
    have hproc := counter_of_entry he hr
    have hadm := h.admitted.2
    have hle : (1 : UInt64) ≤ r.processing := UInt64.le_iff_toNat_le.2 (by
      have h1 : (1 : UInt64).toNat = 1 := rfl
      omega)
    rw [UInt64.toNat_sub_of_le _ _ hle]
    have h1 : (1 : UInt64).toNat = 1 := rfl
    omega
  refine ⟨?_, limits_set h _ hr, absent_set h _ hr,
    fun b hb => h.entered b (List.mem_of_mem_erase hb)⟩
  obtain ⟨hle, hadm⟩ := h.admitted
  have hproc := counter_of_entry he hr
  rw [Admitted, hcount, if_pos he]
  simp only [drop, hlen]
  omega

end TagState

namespace AdmissionState

variable {s s' : AdmissionState}

/-- Of every tag at most 16 permits are held, and its counter is their number. -/
def Admitted (s : AdmissionState) : Prop := ∀ tt, (s.tags tt).Admitted

structure Inv (s : AdmissionState) : Prop where
  tidy : ∀ tt, (s.tags tt).Tidy
  passed : ∀ tt a count, .compareExchange tt a count ∈ s.tasks → count < 16

/-- An `insert` finds the tag's counter at `0`, if there is one; a `compare_exchange` that succeeds
finds its context in the map. -/
def Current (s : AdmissionState) : AdmissionLabel → Prop
  | .insert i => ∀ tt call, s.tasks[i]? = some (.insert tt call) → (s.tags tt).counter = 0
  | .compareExchange i => ∀ tt a count r, s.tasks[i]? = some (.compareExchange tt a count) →
      (s.tags tt).contexts[a]? = some r → r.processing = count → (s.tags tt).entry = some a
  | _ => True

/-- A task goes on, past the comparison only below the limit. -/
theorem passed_set (h : s.Inv) (i : ℕ) {pc : ReservePc}
    (hpc : ∀ tt a count, pc = .compareExchange tt a count → count < 16) :
    ∀ tt a count, .compareExchange tt a count ∈ (s.setTask i pc).tasks → count < 16 := by
  intro tt a count hmem
  rcases List.mem_or_eq_of_mem_set hmem with hmem | rfl
  · exact h.passed tt a count hmem
  · exact hpc tt a count rfl

theorem Inv.setTask (h : s.Inv) (i : ℕ) {pc : ReservePc}
    (hpc : ∀ tt a count, pc = .compareExchange tt a count → count < 16) : (s.setTask i pc).Inv :=
  ⟨h.tidy, passed_set h i hpc⟩

theorem Inv.setTag (h : s.Inv) {tt : TypeTag} {t : TagState} (ht : t.Tidy) :
    (s.setTag tt t).Inv := by
  refine ⟨fun tt' => ?_, h.passed⟩
  by_cases htt : tt' = tt
  · subst htt
    simpa [AdmissionState.setTag] using ht
  · simpa [AdmissionState.setTag, htt] using h.tidy tt'

theorem admitted_setTag (h : s.Inv) {tt : TypeTag} {t : TagState} :
    (s.setTag tt t).Admitted ↔ t.Admitted := by
  constructor
  · intro h'
    simpa [AdmissionState.setTag] using h' tt
  · intro ht tt'
    by_cases htt : tt' = tt
    · subst htt
      simpa [AdmissionState.setTag] using ht
    · simpa [AdmissionState.setTag, htt] using (h.tidy tt').admitted

theorem current_compareExchange {i a : ℕ} {tt : TypeTag} {count : UInt64}
    {r : RelayReceiverContext} (hi : s.tasks[i]? = some (.compareExchange tt a count))
    (hr : (s.tags tt).contexts[a]? = some r) : s.Current (.compareExchange i)
      ↔ (r.processing = count → (s.tags tt).entry = some a) := by
  constructor
  · exact fun h => h tt a count r hi hr
  · intro h tt' a' count' r' hi' hr'
    rw [hi] at hi'
    cases hi'
    rw [hr] at hr'
    cases hr'
    exact h

theorem admitted_step {l : AdmissionLabel} (h : s.Inv) (hs : admission.step s l = some s') :
    (s'.Admitted ↔ s.Current l) ∧ (s.Current l → s'.Inv) := by
  have hall : s.Admitted := fun tt => (h.tidy tt).admitted
  have hidle : ∀ (tt : TypeTag) (a : ℕ) (count : UInt64),
      ReservePc.idle = .compareExchange tt a count → count < 16 := by simp
  change s.step l = some s' at hs
  cases l with
  | spawn =>
    cases hs
    refine ⟨iff_of_true hall trivial, fun _ => ⟨h.tidy, fun tt a count hmem => ?_⟩⟩
    exact h.passed tt a count (by simpa using hmem)
  | containsKey i tt call =>
    simp only [step] at hs
    split at hs
    · cases hs
      refine ⟨iff_of_true hall trivial, fun _ => h.setTask i fun tt' a count hpc => ?_⟩
      split_ifs at hpc
    · cases hs
  | insert i =>
    simp only [step] at hs
    split at hs
    · rename_i tt call hi
      cases hs
      have hcur : s.Current (.insert i) ↔ (s.tags tt).counter = 0 := by simp [Current, hi]
      rw [hcur]
      refine ⟨(admitted_setTag h).trans (TagState.admitted_insert (h.tidy tt)), fun h0 => ?_⟩
      exact (h.setTag (TagState.tidy_insert (h.tidy tt) h0)).setTask i (by simp)
    · cases hs
  | get i =>
    simp only [step] at hs
    split at hs
    · obtain ⟨a, -, rfl⟩ := Option.map_eq_some_iff.1 hs
      exact ⟨iff_of_true hall trivial, fun _ => h.setTask i (by simp)⟩
    · obtain ⟨a, -, rfl⟩ := Option.map_eq_some_iff.1 hs
      exact ⟨iff_of_true hall trivial, fun _ => h.setTask i (by simp)⟩
    · cases hs
  | load i count =>
    simp only [step] at hs
    split at hs
    · rename_i tt a hi
      obtain ⟨r, hr, rfl⟩ := Option.map_eq_some_iff.1 hs
      refine ⟨iff_of_true hall trivial, fun _ => h.setTask i fun tt' a' count' hpc => ?_⟩
      split_ifs at hpc with hlt
      cases hpc
      rwa [(h.tidy tt).limits r (List.mem_of_getElem? hr)] at hlt
    · cases hs
  | compareExchange i =>
    simp only [step] at hs
    split at hs
    · rename_i tt a count hi
      obtain ⟨r, hr, rfl⟩ := Option.map_eq_some_iff.1 hs
      have hlt := h.passed tt a count (List.mem_of_getElem? hi)
      rw [current_compareExchange hi hr]
      by_cases heq : r.processing = count
      · subst heq
        rw [if_pos rfl, imp_iff_right rfl]
        refine ⟨(admitted_setTag h).trans (TagState.admitted_grant (h.tidy tt) hr hlt),
          fun he => ?_⟩
        exact (h.setTag (TagState.tidy_grant (h.tidy tt) hr hlt he)).setTask i hidle
      · rw [if_neg heq]
        exact ⟨iff_of_true hall fun heq' => absurd heq' heq, fun _ => h.setTask i (by simp)⟩
    · cases hs
  | dropPermit tt a =>
    simp only [step] at hs
    split_ifs at hs with ha
    obtain ⟨r, hr, rfl⟩ := Option.map_eq_some_iff.1 hs
    have htidy := TagState.tidy_drop (h.tidy tt) hr ha
    exact ⟨iff_of_true ((admitted_setTag h).2 htidy.admitted) trivial, fun _ => h.setTag htidy⟩

/-- The runs in which the limit of every tag holds, and its counter is the number of its permits,
are exactly those that insert over no counter in use and count on no context that was replaced. -/
theorem admitted_iff_current (ls : List AdmissionLabel) :
    admission.Always Admitted ls ↔ admission.Throughout Current ls := by
  have hstart : start.Inv := ⟨fun tt => TagState.tidy_empty, by simp [start]⟩
  exact Lts.always_iff_throughout (J := Inv) hstart (fun _ h tt => (h.tidy tt).admitted)
    (fun _ _ _ h hs hC => (admitted_step h hs).2 hC)
    (fun _ _ _ h hs hP => (admitted_step h hs).1.1 hP) ls

/-- Two tasks look at a tag before either enters it; the second replaces the context that the first
has its permit from. -/
theorem second_insert_forgets_permit : ¬ admission.Always Admitted
    [.spawn, .spawn, .containsKey 0 "T" .tryReserve, .containsKey 1 "T" .tryReserve, .insert 0,
      .get 0, .load 0 0, .compareExchange 0, .insert 1] := by
  intro h
  have := (h.last rfl "T").2
  revert this
  decide

end AdmissionState

end MessageBus
