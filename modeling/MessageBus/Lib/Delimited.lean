import Mathlib.Data.List.Basic

/-!
# Words between delimiters

A word without delimiters is told from what follows it by the first delimiter (`plain_append_inj`).
A printer `SetsOff` a value where its print, in front of any delimiter, determines the value up to
`norm` and the rest; a separated list of such prints is determined the same way (`sepBy_inj`).
-/

namespace Delimited

variable {α β γ : Type*} (D : β → Prop)

/-- Nothing, or something that begins with a delimiter. -/
def Ends (r : List β) : Prop := ∀ b ∈ r.head?, D b

def Plain (w : List β) : Prop := ∀ b ∈ w, ¬ D b

variable {D}

theorem ends_nil : Ends D [] := by
  simp [Ends]

theorem Ends.mono {D' : β → Prop} (h : ∀ b, D b → D' b) {r : List β} (hr : Ends D r) : Ends D' r :=
  fun b hb => h b (hr b hb)

theorem ends_cons {b : β} {r : List β} (h : D b) : Ends D (b :: r) := by
  simpa [Ends] using h

theorem plain_append_inj {w w' r r' : List β} (hw : Plain D w) (hw' : Plain D w') (hr : Ends D r)
    (hr' : Ends D r') (h : w ++ r = w' ++ r') : w = w' ∧ r = r' := by
  induction w generalizing w' with
  | nil =>
    cases w' with
    | nil => exact ⟨rfl, h⟩
    | cons b w' =>
      rw [List.nil_append, List.cons_append] at h
      exact absurd (hr b (by simp [h])) (hw' b List.mem_cons_self)
  | cons b w ih =>
    cases w' with
    | nil =>
      rw [List.nil_append, List.cons_append] at h
      exact absurd (hr' b (by simp [← h])) (hw b List.mem_cons_self)
    | cons b' w' =>
      rw [List.cons_append, List.cons_append, List.cons.injEq] at h
      obtain ⟨rfl, h⟩ := h
      obtain ⟨rfl, hrest⟩ := ih (fun c hc => hw c (List.mem_cons_of_mem b hc))
        (fun c hc => hw' c (List.mem_cons_of_mem b hc)) h
      exact ⟨rfl, hrest⟩

variable (D)

def SetsOff (print : α → List β) (norm : α → γ) (x : α) : Prop :=
  ∀ y r r', Ends D r → Ends D r' → print x ++ r = print y ++ r' → norm x = norm y ∧ r = r'

/-- The words with a separator between them. -/
def sepBy (sep : β) : List (List β) → List β
  | [] => []
  | w :: ws => w ++ ws.flatMap (sep :: ·)

variable {D} {print : α → List β} {norm : α → γ} {sep close : β} {r r' : List β}

/-- What follows the first of a separated list begins with a delimiter. -/
theorem ends_rest (hsep : D sep) (hclose : D close) (ws : List (List β)) (r : List β) :
    Ends D (ws.flatMap (sep :: ·) ++ close :: r) := by
  cases ws with
  | nil => exact ends_cons hclose
  | cons w ws => exact ends_cons hsep

theorem rest_inj (hsep : D sep) (hclose : D close) (hne : sep ≠ close) {xs : List α}
    (hx : ∀ x ∈ xs, SetsOff D print norm x) {ys : List α}
    (h : (xs.map print).flatMap (sep :: ·) ++ close :: r
      = (ys.map print).flatMap (sep :: ·) ++ close :: r') : xs.map norm = ys.map norm ∧ r = r' := by
  induction xs generalizing ys with
  | nil =>
    cases ys with
    | nil => exact ⟨rfl, (List.cons.inj h).2⟩
    | cons y ys => exact absurd (List.cons.inj h).1.symm hne
  | cons x xs ih =>
    cases ys with
    | nil => exact absurd (List.cons.inj h).1 hne
    | cons y ys =>
      simp only [List.map_cons, List.flatMap_cons, List.cons_append, List.append_assoc,
        List.cons.injEq, true_and] at h
      obtain ⟨hxy, h⟩ := hx x List.mem_cons_self y _ _ (ends_rest hsep hclose _ _)
        (ends_rest hsep hclose _ _) h
      obtain ⟨hxs, hr⟩ := ih (fun x' hx' => hx x' (List.mem_cons_of_mem x hx')) h
      exact ⟨by rw [List.map_cons, List.map_cons, hxy, hxs], hr⟩

theorem sepBy_inj (hsep : D sep) (hclose : D close) (hne : sep ≠ close) {x y : α} {xs ys : List α}
    (hx : ∀ x' ∈ x :: xs, SetsOff D print norm x')
    (h : sepBy sep ((x :: xs).map print) ++ close :: r
      = sepBy sep ((y :: ys).map print) ++ close :: r') :
    (x :: xs).map norm = (y :: ys).map norm ∧ r = r' := by
  simp only [List.map_cons, sepBy, List.append_assoc] at h
  obtain ⟨hxy, h⟩ := hx x List.mem_cons_self y _ _ (ends_rest hsep hclose _ _)
    (ends_rest hsep hclose _ _) h
  obtain ⟨hxs, hr⟩ := rest_inj hsep hclose hne (fun x' hx' => hx x' (List.mem_cons_of_mem x hx')) h
  exact ⟨by rw [List.map_cons, List.map_cons, hxy, hxs], hr⟩

end Delimited
