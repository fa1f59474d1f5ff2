import Mathlib.Data.List.Induction
import Mathlib.Tactic.SplitIfs

/-!
# Gathering a sequence into batches

A batcher puts values into a buffer, closes a batch as soon as the buffer holds `b` of them, and
closes a partial one on a flush. The batches and the buffer are always the values in order
(`flatten_split`), and the buffer holds what came after the last flush beyond the last full batch
(`length_buffer_split`). A batch is closed where there is enough for one or a flush behind a value
(`batches_ne_nil_iff`), and a second one where the rest has that too (`two_le_length_batches_iff`).
-/

namespace Batching

variable {α : Type*}

inductive Cmd (α : Type*) where
  | put (a : α)
  | flush

def Cmd.put? : Cmd α → Option α
  | put a => some a
  | flush => none

@[ext] structure Split (α : Type*) where
  batches : List (List α)
  buffer : List α

def feed (b : ℕ) (s : Split α) : Cmd α → Split α
  | .put a =>
    if b ≤ (s.buffer ++ [a]).length then ⟨s.batches ++ [s.buffer ++ [a]], []⟩
    else ⟨s.batches, s.buffer ++ [a]⟩
  | .flush => if s.buffer.isEmpty then s else ⟨s.batches ++ [s.buffer], []⟩

def split (b : ℕ) (cs : List (Cmd α)) : Split α := cs.foldl (feed b) ⟨[], []⟩

/-- The values put after the last flush. -/
def sinceFlush (cs : List (Cmd α)) : List α :=
  cs.foldl (fun l c => match c with | .put a => l ++ [a] | .flush => []) []

@[simp] theorem split_nil (b : ℕ) : split b ([] : List (Cmd α)) = ⟨[], []⟩ := rfl

theorem split_concat (b : ℕ) (cs : List (Cmd α)) (c : Cmd α) :
    split b (cs ++ [c]) = feed b (split b cs) c := by
  simp [split]

theorem sinceFlush_put (cs : List (Cmd α)) (a : α) :
    sinceFlush (cs ++ [.put a]) = sinceFlush cs ++ [a] := by
  simp [sinceFlush]

theorem sinceFlush_flush (cs : List (Cmd α)) : sinceFlush (cs ++ [.flush]) = [] := by
  simp [sinceFlush]

/-- Nothing is lost, doubled or reordered. -/
theorem flatten_split (b : ℕ) (cs : List (Cmd α)) :
    (split b cs).batches.flatten ++ (split b cs).buffer = cs.filterMap Cmd.put? := by
  induction cs using List.reverseRecOn with
  | nil => rfl
  | append_singleton cs c ih =>
    rw [split_concat, List.filterMap_append, ← ih]
    unfold feed
    rcases c with a | _
    · dsimp only
      split_ifs <;> simp [Cmd.put?]
    · dsimp only
      split_ifs <;> simp [Cmd.put?]

theorem length_buffer_split (b : ℕ) (cs : List (Cmd α)) :
    (split b cs).buffer.length = (sinceFlush cs).length % max 1 b := by
  induction cs using List.reverseRecOn with
  | nil => simp [sinceFlush]
  | append_singleton cs c ih =>
    rw [split_concat]
    unfold feed
    rcases c with a | _
    · have hlt : (sinceFlush cs).length % max 1 b < max 1 b := Nat.mod_lt _ (by omega)
      rw [sinceFlush_put, List.length_append, List.length_singleton, Nat.add_mod, ← ih]
      simp only [List.length_append, List.length_singleton]
      split_ifs with hb
      · show 0 = _
        rcases Nat.eq_or_lt_of_le (Nat.le_max_left 1 b) with h1 | h1
        · rw [← h1, Nat.mod_one]
        · have : (split b cs).buffer.length + 1 = max 1 b := by omega
          rw [Nat.mod_eq_of_lt h1, this, Nat.mod_self]
      · have h1 : 1 < max 1 b := by omega
        rw [Nat.mod_eq_of_lt h1, Nat.mod_eq_of_lt (by omega)]
        simp
    · rw [sinceFlush_flush]
      dsimp only
      split_ifs with hb
      · simp [List.isEmpty_iff.1 hb]
      · simp

section Closes

variable {b : ℕ} {cs : List (Cmd α)}

/-- There is enough for a batch, or a flush behind a value. -/
def Closes (b : ℕ) (cs : List (Cmd α)) : Prop :=
  max 1 b ≤ (cs.filterMap Cmd.put?).length
    ∨ ∃ pre post, cs = pre ++ .flush :: post ∧ pre.filterMap Cmd.put? ≠ []

theorem foldl_feed_append (l : List (List α)) (s : Split α) (cs : List (Cmd α)) :
    cs.foldl (feed b) ⟨l ++ s.batches, s.buffer⟩
      = ⟨l ++ (cs.foldl (feed b) s).batches, (cs.foldl (feed b) s).buffer⟩ := by
  induction cs generalizing s with
  | nil => rfl
  | cons c cs ih =>
    have hfeed : feed b ⟨l ++ s.batches, s.buffer⟩ c
        = ⟨l ++ (feed b s c).batches, (feed b s c).buffer⟩ := by
      rcases c with a | _
      · simp only [feed]
        split_ifs <;> simp
      · simp only [feed]
        split_ifs <;> simp
    simp only [List.foldl_cons, hfeed]
    exact ih (feed b s c)

theorem split_append (b : ℕ) (cs cs' : List (Cmd α)) :
    (split b (cs ++ cs')).batches
      = (split b cs).batches ++ (cs'.foldl (feed b) ⟨[], (split b cs).buffer⟩).batches := by
  have := foldl_feed_append (b := b) (split b cs).batches ⟨[], (split b cs).buffer⟩ cs'
  simp only [List.append_nil] at this
  rw [split, List.foldl_append]
  exact congrArg Split.batches this

theorem Closes.append (h : Closes b cs) (cs' : List (Cmd α)) : Closes b (cs ++ cs') := by
  rcases h with h | ⟨pre, post, rfl, hpre⟩
  · refine .inl ?_
    simp only [List.filterMap_append, List.length_append]
    omega
  · exact .inr ⟨pre, post ++ cs', by simp, hpre⟩

/-- What the last command adds. -/
theorem closes_concat {c : Cmd α} (h : Closes b (cs ++ [c])) :
    Closes b cs ∨ max 1 b ≤ ((cs ++ [c]).filterMap Cmd.put?).length
      ∨ (c = .flush ∧ cs.filterMap Cmd.put? ≠ []) := by
  rcases h with h | ⟨pre, post, hcs, hpre⟩
  · exact .inr (.inl h)
  · rcases List.eq_nil_or_concat post with rfl | ⟨post, c', rfl⟩
    · obtain ⟨rfl, hc⟩ := List.append_inj' hcs rfl
      exact .inr (.inr ⟨by simpa using hc, hpre⟩)
    · rw [List.concat_eq_append, ← List.cons_append, ← List.append_assoc] at hcs
      exact .inl (.inr ⟨pre, post, (List.append_inj' hcs rfl).1, hpre⟩)

/-- Without a batch all the values are still buffered, behind those that were before. -/
theorem buffer_of_batches_eq_nil {buffer : List α}
    (h : (cs.foldl (feed b) ⟨[], buffer⟩).batches = []) :
    (cs.foldl (feed b) ⟨[], buffer⟩).buffer = buffer ++ cs.filterMap Cmd.put? ∧ ¬ Closes b cs := by
  induction cs using List.reverseRecOn with
  | nil =>
    refine ⟨by simp, ?_⟩
    rintro (h | ⟨pre, post, hcs, -⟩)
    · simp only [List.filterMap_nil, List.length_nil] at h
      omega
    · simp at hcs
  | append_singleton cs c ih =>
    rw [List.foldl_append, List.foldl_cons, List.foldl_nil] at h ⊢
    generalize cs.foldl (feed b) ⟨[], buffer⟩ = r at h ih ⊢
    rcases c with a | _
    · simp only [feed] at h ⊢
      split_ifs at h ⊢ with hb
      · simp at h
      · obtain ⟨hbuffer, hcloses⟩ := ih h
        simp only [hbuffer, List.length_append, List.length_singleton] at hb
        refine ⟨by simp [hbuffer, Cmd.put?], fun hc => ?_⟩
        rcases closes_concat hc with hc | hc | ⟨hc, -⟩
        · exact hcloses hc
        · simp only [List.filterMap_append, List.filterMap_cons, Cmd.put?, List.filterMap_nil,
            List.length_append, List.length_singleton] at hc
          omega
        · cases hc
    · simp only [feed] at h ⊢
      split_ifs at h ⊢ with hb
      · obtain ⟨hbuffer, hcloses⟩ := ih h
        refine ⟨by simp [hbuffer, Cmd.put?], fun hc => ?_⟩
        have hnil : cs.filterMap Cmd.put? = [] := by
          rw [List.isEmpty_iff, hbuffer] at hb
          exact (List.append_eq_nil_iff.1 hb).2
        rcases closes_concat hc with hc | hc | ⟨-, hc⟩
        · exact hcloses hc
        · have hflush : [Cmd.flush].filterMap Cmd.put? = ([] : List α) := rfl
          rw [List.filterMap_append, hnil, hflush] at hc
          simp at hc
        · exact hc hnil
      · simp at h

theorem batches_ne_nil_iff : (split b cs).batches ≠ [] ↔ Closes b cs := by
  refine ⟨fun h => ?_, fun h hnil => (buffer_of_batches_eq_nil hnil).2 h⟩
  induction cs using List.reverseRecOn with
  | nil => exact absurd rfl h
  | append_singleton cs c ih =>
    by_cases hcs : (split b cs).batches = []
    · obtain ⟨hbuffer, -⟩ := buffer_of_batches_eq_nil hcs
      have hbuffer : (split b cs).buffer = cs.filterMap Cmd.put? := hbuffer
      rw [split_concat] at h
      rcases c with a | _
      · simp only [feed, hbuffer, List.length_append, List.length_singleton] at h
        split_ifs at h with hb
        · refine .inl ?_
          simp only [List.filterMap_append, List.filterMap_cons, Cmd.put?, List.filterMap_nil,
            List.length_append, List.length_singleton]
          omega
        · exact absurd hcs h
      · simp only [feed, hbuffer] at h
        split_ifs at h with hb
        · exact absurd hcs h
        · exact .inr ⟨cs, [], rfl, by simpa using hb⟩
    · exact (ih hcs).append [c]

/-- The first batch is closed at some point, and nothing is buffered then. -/
theorem exists_first_batch (h : (split b cs).batches ≠ []) :
    ∃ pre post l, cs = pre ++ post ∧ split b pre = ⟨[l], []⟩ := by
  induction cs using List.reverseRecOn with
  | nil => exact absurd rfl h
  | append_singleton cs c ih =>
    by_cases hcs : (split b cs).batches = []
    · refine ⟨cs ++ [c], [], ?_⟩
      rw [split_concat] at h ⊢
      rcases c with a | _
      · simp only [feed, hcs] at h ⊢
        split_ifs at h ⊢
        · exact ⟨_, by simp, rfl⟩
        · exact absurd rfl h
      · simp only [feed] at h ⊢
        split_ifs at h ⊢
        · exact absurd hcs h
        · exact ⟨(split b cs).buffer, by simp, by simp [hcs]⟩
    · obtain ⟨pre, post, l, rfl, hl⟩ := ih hcs
      exact ⟨pre, post ++ [c], l, by simp, hl⟩

theorem two_le_length_batches_iff : 2 ≤ (split b cs).batches.length
    ↔ ∃ pre post, cs = pre ++ post ∧ Closes b pre ∧ Closes b post := by
  constructor
  · intro h
    have hne : (split b cs).batches ≠ [] := List.ne_nil_of_length_pos (by omega)
    obtain ⟨pre, post, l, rfl, hl⟩ := exists_first_batch hne
    rw [split_append, hl] at h
    have h : 2 ≤ ([l] ++ (split b post).batches).length := h
    refine ⟨pre, post, rfl, batches_ne_nil_iff.1 (by simp [hl]), batches_ne_nil_iff.1 ?_⟩
    refine List.ne_nil_of_length_pos ?_
    simp only [List.length_append, List.length_singleton] at h
    omega
  · rintro ⟨pre, post, rfl, hpre, hpost⟩
    have h₁ := List.length_pos_iff.2 (batches_ne_nil_iff.2 hpre)
    have hpost' : (post.foldl (feed b) ⟨[], (split b pre).buffer⟩).batches ≠ [] :=
      fun hnil => (buffer_of_batches_eq_nil hnil).2 hpost
    have h₂ := List.length_pos_iff.2 hpost'
    rw [split_append, List.length_append]
    omega

end Closes

end Batching
