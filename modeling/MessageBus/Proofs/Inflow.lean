import MessageBus.Proofs.Framing
import MessageBus.Proofs.RoundTrip

/-!
# The bytes a TCP reader survives

Bytes fall into chunks in one way only (`chunk_unique`): whole frames, words that start none, and a
rest that is too short to go on or announces more than a `Vec` holds. The reader gets to the end of
its stream exactly if no announced size is too large and every whole frame among the chunks is
harmless: of content type 0, and with no packet that the reader panics on or waits for in vain.
-/

namespace MessageBus

open Bytes

variable {S : Type} (cbor : PacketCbor) (c : Codec S) (env : Surroundings)

/-- The packet decodes to no `Nop`; what it makes the reader call comes back, and what it makes it
send is received. -/
def ProtocolPacket.Harmless (k : ℕ) (p : ProtocolPacket) : Prop :=
  match p.deserialize c with
  | none => False
  | some (.ok .nop) => False
  | some (.ok (.action .close)) => env.rx k = true
  | some (.ok (.action .flush)) => env.returns k = true ∧ env.rx k = true
  | some (.ok (.action .sync)) => env.returns k = true ∧ env.rx k = true
  | _ => True

def Chunk.Harmless (k : ℕ) : Chunk → Prop
  | .word _ => True
  | .frame _ contentType body =>
    contentType = 0 ∧ ∀ p, cbor.fromSlice body = some p → p.Harmless c env k

/-- However the bytes begin with chunks, the chunks are harmless and no frame of more than a `Vec`
holds is announced behind them. -/
def HarmlessFrom (k : ℕ) (bs : List UInt8) : Prop :=
  ∀ (xs : List Chunk) (rest : List UInt8), (∀ x ∈ xs, x.valid = true) →
    bs = xs.flatMap Chunk.bytes ++ rest →
      (∀ (i : ℕ) (x : Chunk), xs[i]? = some x → x.Harmless cbor c env (k + i))
      ∧ ∀ version contentType bodySize tail, bodySize < 18446744073709551616 →
        rest = header version contentType bodySize ++ tail → bodySize ≤ vecMax

section Cuts

theorem putBE_inj {k n m : ℕ} (hn : n < 256 ^ k) (hm : m < 256 ^ k) (h : putBE k n = putBE k m) :
    n = m := by
  rw [← getBE_putBE_of_lt hn, h, getBE_putBE_of_lt hm]

theorem header_inj {v v' ct ct' size size' : ℕ} {a b : List UInt8}
    (h : header v ct size ++ a = header v' ct' size' ++ b) :
    putBE 2 v = putBE 2 v' ∧ putBE 2 ct = putBE 2 ct' ∧ putBE 8 size = putBE 8 size' ∧ a = b := by
  obtain ⟨hh, rfl⟩ := List.append_inj h (by simp)
  rw [header_eq, header_eq] at hh
  obtain ⟨hh, h8⟩ := List.append_inj (List.append_cancel_left hh) (by simp)
  obtain ⟨h2, h4⟩ := List.append_inj hh (by simp)
  exact ⟨h2, h4, h8, rfl⟩

theorem length_bytes {x : Chunk} (h : x.valid = true) : 4 ≤ x.bytes.length := by
  cases x with
  | word w =>
    simp only [Chunk.valid, decide_eq_true_eq] at h
    exact h.1.ge
  | frame v ct body =>
    simp only [Chunk.bytes, List.length_append, length_header]
    omega

/-- A word that starts no frame is no start of a header. -/
theorem word_ne_header {w a b : List UInt8} (hw : (Chunk.word w).valid = true) {v ct size : ℕ} :
    w ++ a ≠ header v ct size ++ b := by
  simp only [Chunk.valid, decide_eq_true_eq] at hw
  intro h
  rw [header_eq, List.append_assoc] at h
  exact hw.2 (List.append_inj h hw.1).1

theorem chunk_unique {x y : Chunk} {a b : List UInt8} (hx : x.valid = true) (hy : y.valid = true)
    (h : x.bytes ++ a = y.bytes ++ b) : x = y ∧ a = b := by
  cases x with
  | word w =>
    cases y with
    | word w' =>
      have hw := hx
      have hw' := hy
      simp only [Chunk.valid, decide_eq_true_eq] at hw hw'
      obtain ⟨hww, hab⟩ := List.append_inj h (hw.1.trans hw'.1.symm)
      exact ⟨congrArg _ hww, hab⟩
    | frame v ct body =>
      rw [Chunk.bytes, Chunk.bytes, List.append_assoc] at h
      exact absurd h (word_ne_header hx)
  | frame v ct body =>
    cases y with
    | word w =>
      rw [Chunk.bytes, Chunk.bytes, List.append_assoc] at h
      exact absurd h.symm (word_ne_header hy)
    | frame v' ct' body' =>
      simp only [Chunk.valid, decide_eq_true_eq] at hx hy
      simp only [Chunk.bytes, List.append_assoc] at h
      obtain ⟨h2, h4, h8, hrest⟩ := header_inj h
      obtain rfl : v = v' := putBE_inj (k := 2) hx.1 hy.1 h2
      obtain rfl : ct = ct' := putBE_inj (k := 2) hx.2.1 hy.2.1 h4
      have hlen : body.length = body'.length := by
        have := hx.2.2
        have := hy.2.2
        unfold vecMax at *
        exact putBE_inj (k := 8) (by omega) (by omega) h8
      obtain ⟨rfl, rfl⟩ := List.append_inj hrest hlen
      exact ⟨rfl, rfl⟩

/-- The bytes a reader is at: nothing to read, a chunk, a torn frame, or one too large. -/
inductive Cut : List UInt8 → Prop where
  | short {bs : List UInt8} : bs.length < 4 → Cut bs
  | chunk {x : Chunk} (rest : List UInt8) : x.valid = true → Cut (x.bytes ++ rest)
  | tornHeader {t : List UInt8} : t.length < 12 → Cut (mbus ++ t)
  | tornBody {v ct size : ℕ} {t : List UInt8} : ct < 65536 → size ≤ vecMax → t.length < size →
      Cut (header v ct size ++ t)
  | tooLarge {v ct size : ℕ} (t : List UInt8) : ct < 65536 → size < 18446744073709551616 →
      vecMax < size → Cut (header v ct size ++ t)

theorem cut (bs : List UInt8) : Cut bs := by
  by_cases h4 : bs.length < 4
  · exact .short h4
  obtain ⟨w, t, hw, rfl⟩ : ∃ w t, w.length = 4 ∧ bs = w ++ t :=
    ⟨bs.take 4, bs.drop 4, by simp; omega, (List.take_append_drop 4 bs).symm⟩
  by_cases hm : w = mbus
  swap
  · exact .chunk (x := .word w) t (by simp [Chunk.valid, hw, hm])
  subst hm
  by_cases h12 : t.length < 12
  · exact .tornHeader h12
  obtain ⟨hd, t, hhd, rfl⟩ : ∃ hd t', hd.length = 12 ∧ t = hd ++ t' :=
    ⟨t.take 12, t.drop 12, by simp; omega, (List.take_append_drop 12 t).symm⟩
  have hparts : hd = hd.take 2 ++ (hd.drop 2).take 2 ++ hd.drop 4 := by
    rw [← List.take_add, List.take_append_drop]
  have hv : putBE 2 (getBE (hd.take 2)) = hd.take 2 := by
    have := putBE_getBE (hd.take 2)
    rwa [List.length_take, hhd] at this
  have hct : putBE 2 (getBE ((hd.drop 2).take 2)) = (hd.drop 2).take 2 := by
    have := putBE_getBE ((hd.drop 2).take 2)
    rwa [List.length_take, List.length_drop, hhd] at this
  have hsize : putBE 8 (getBE (hd.drop 4)) = hd.drop 4 := by
    have := putBE_getBE (hd.drop 4)
    rwa [List.length_drop, hhd] at this
  have hlt : ∀ (l : List UInt8) (k : ℕ), l.length ≤ k → getBE l < 256 ^ k := fun l k hk =>
    Nat.lt_of_lt_of_le (getBE_lt l) (Nat.pow_le_pow_right (by omega) hk)
  have hheader : mbus ++ (hd ++ t)
      = header (getBE (hd.take 2)) (getBE ((hd.drop 2).take 2)) (getBE (hd.drop 4)) ++ t := by
    rw [header_eq, hv, hct, hsize, ← hparts, List.append_assoc]
  have hvlt := hlt (hd.take 2) 2 (by simp)
  have hctlt := hlt ((hd.drop 2).take 2) 2 (by simp)
  have hsizelt := hlt (hd.drop 4) 8 (by simp [hhd])
  rw [hheader]
  generalize getBE (hd.take 2) = v at *
  generalize getBE ((hd.drop 2).take 2) = ct at *
  generalize getBE (hd.drop 4) = size at *
  by_cases hmax : vecMax < size
  · exact .tooLarge t hctlt hsizelt hmax
  by_cases hbody : t.length < size
  · exact .tornBody hctlt (by omega) hbody
  have hlen : (t.take size).length = size := List.length_take_of_le (by omega)
  have hchunk : header v ct size ++ t
      = (Chunk.frame v ct (t.take size)).bytes ++ t.drop size := by
    rw [Chunk.bytes, hlen, List.append_assoc, List.take_append_drop]
  rw [hchunk]
  exact .chunk _ (by simp only [Chunk.valid, hlen]; simp; exact ⟨hvlt, hctlt, by omega⟩)

end Cuts

section Harmless

variable {cbor c env} {k : ℕ} {bs rest : List UInt8}

theorem harmlessFrom_chunk {x : Chunk} (hx : x.valid = true) :
    HarmlessFrom cbor c env k (x.bytes ++ rest)
      ↔ x.Harmless cbor c env k ∧ HarmlessFrom cbor c env (k + 1) rest := by
  constructor
  · intro h
    refine ⟨(h [x] rest (by simpa using hx) (by simp)).1 0 x rfl, fun xs rest' hxs hrest => ?_⟩
    have h' := h (x :: xs) rest' (List.forall_mem_cons.2 ⟨hx, hxs⟩)
      (by rw [hrest, List.flatMap_cons, List.append_assoc])
    refine ⟨fun i y hy => ?_, h'.2⟩
    have := h'.1 (i + 1) y hy
    rwa [show k + (i + 1) = k + 1 + i by omega] at this
  · rintro ⟨hharm, h⟩ xs rest' hxs hbs
    cases xs with
    | nil =>
      refine ⟨by simp, fun v ct size tail hsize hrest' => ?_⟩
      rw [List.flatMap_nil, List.nil_append, hrest'] at hbs
      cases x with
      | word w => exact absurd hbs (word_ne_header hx)
      | frame v' ct' body =>
        simp only [Chunk.valid, decide_eq_true_eq] at hx
        have hmax := hx.2.2
        rw [Chunk.bytes, List.append_assoc] at hbs
        have hlt : body.length < 256 ^ 8 := by
          unfold vecMax at hmax
          omega
        have hlen := putBE_inj (k := 8) hlt hsize (header_inj hbs).2.2.1
        omega
    | cons y ys =>
      rw [List.forall_mem_cons] at hxs
      rw [List.flatMap_cons, List.append_assoc] at hbs
      obtain ⟨rfl, hys⟩ := chunk_unique hx hxs.1 hbs
      obtain ⟨hall, hsizes⟩ := h ys rest' hxs.2 hys
      refine ⟨fun i z hz => ?_, hsizes⟩
      cases i with
      | zero =>
        cases hz
        exact hharm
      | succ i =>
        have := hall i z hz
        rwa [show k + 1 + i = k + (i + 1) by omega] at this

/-- Bytes with no chunk in front that announce nothing too large. -/
theorem harmlessFrom_uncut (hx : ∀ (x : Chunk) rest, x.valid = true → bs ≠ x.bytes ++ rest)
    (hh : ∀ v ct size tail, size < 18446744073709551616 →
      bs = header v ct size ++ tail → size ≤ vecMax) : HarmlessFrom cbor c env k bs := by
  intro xs rest hxs hbs
  cases xs with
  | nil =>
    refine ⟨by simp, fun v ct size tail hsize hrest => ?_⟩
    exact hh v ct size tail hsize (hbs.trans hrest)
  | cons x xs =>
    rw [List.forall_mem_cons] at hxs
    rw [List.flatMap_cons, List.append_assoc] at hbs
    exact absurd hbs (hx x _ hxs.1)

theorem harmlessFrom_short (h : bs.length < 4) : HarmlessFrom cbor c env k bs := by
  refine harmlessFrom_uncut (fun x rest hx hbs => ?_) fun v ct size tail _ hbs => ?_
  · have := length_bytes hx
    rw [hbs, List.length_append] at h
    omega
  · rw [hbs, List.length_append, length_header] at h
    omega

theorem harmlessFrom_tornHeader {t : List UInt8} (h : t.length < 12) :
    HarmlessFrom cbor c env k (mbus ++ t) := by
  have hlen : (mbus ++ t).length < 16 := by
    rw [List.length_append, length_mbus]
    omega
  refine harmlessFrom_uncut (fun x rest hx hbs => ?_) fun v ct size tail _ hbs => ?_
  · cases x with
    | word w =>
      simp only [Chunk.valid, decide_eq_true_eq] at hx
      exact hx.2 (List.append_inj hbs hx.1.symm).1.symm
    | frame v ct body =>
      rw [hbs, Chunk.bytes, List.length_append, List.length_append, length_header] at hlen
      omega
  · rw [hbs, List.length_append, length_header] at hlen
    omega

theorem harmlessFrom_tornBody {v ct size : ℕ} {t : List UInt8} (hmax : size ≤ vecMax)
    (h : t.length < size) : HarmlessFrom cbor c env k (header v ct size ++ t) := by
  have hlt : size < 256 ^ 8 := by
    unfold vecMax at hmax
    omega
  refine harmlessFrom_uncut (fun x rest hx hbs => ?_) fun v' ct' size' tail hsize hbs => ?_
  · cases x with
    | word w => exact word_ne_header hx hbs.symm
    | frame v' ct' body =>
      simp only [Chunk.valid, decide_eq_true_eq] at hx
      have hbody := hx.2.2
      rw [Chunk.bytes, List.append_assoc] at hbs
      obtain ⟨-, -, h8, rfl⟩ := header_inj hbs
      have hlen : size = body.length := putBE_inj hlt (by unfold vecMax at hbody; omega) h8
      rw [List.length_append] at h
      omega
  · have hsame := putBE_inj hlt hsize (header_inj hbs).2.2.1
    omega

theorem not_harmlessFrom_tooLarge {v ct size : ℕ} {t : List UInt8}
    (hsize : size < 18446744073709551616) (hmax : vecMax < size) :
    ¬ HarmlessFrom cbor c env k (header v ct size ++ t) := by
  intro h
  have := (h [] _ (by simp) rfl).2 v ct size t hsize rfl
  omega

end Harmless

namespace TcpReader

variable {cbor c env} {k : ℕ} {r r' : TcpReader}

/-- The reader, polled from the `k`-th turn on, gets to the end of its stream. -/
def Survives (cbor : PacketCbor) (c : Codec S) (env : Surroundings) (k : ℕ) (r : TcpReader) :
    Prop := (r.inflow cbor c env k).2 = .ended

theorem survives_ended (h : r.readPacket cbor = .ended) : r.Survives cbor c env k := by
  rw [Survives, inflow]
  split <;> simp_all

theorem survives_skipped (h : r.readPacket cbor = .skipped r') :
    r.Survives cbor c env k ↔ r'.Survives cbor c env (k + 1) := by
  rw [Survives, inflow]
  split <;> simp_all [Survives]

theorem not_survives_panicked (h : r.readPacket cbor = .panicked) :
    ¬ r.Survives cbor c env k := by
  rw [Survives, inflow]
  split <;> simp_all

/-- The stream goes on past a harmless packet, and on any other panics or waits. -/
theorem onPacket_cases (c : Codec S) (env : Surroundings) (k : ℕ) (p : ProtocolPacket) :
    (p.Harmless c env k ∧ ∃ act, onPacket env k c p = .ok act) ∨
      (¬ p.Harmless c env k ∧ ∃ e, onPacket env k c p = .error e ∧ e ≠ .ended) := by
  unfold onPacket ProtocolPacket.Harmless
  rcases p.deserialize c with _ | _ | item
  · simp
  · simp
  rcases item with _ | ev | a | ⟨mid, msg, req⟩
  · simp [actOn]
  · simp [actOn]
  · cases a with
    | init | stats => simp [actOn]
    | _ =>
      simp only [actOn, answerAfter, answerWith]
      split_ifs <;> simp_all
  · simp [actOn]

theorem survives_packet {p : ProtocolPacket} (h : r.readPacket cbor = .packet p r') :
    r.Survives cbor c env k ↔ p.Harmless c env k ∧ r'.Survives cbor c env (k + 1) := by
  rw [Survives, inflow]
  split
  · simp_all
  · simp_all
  · rename_i p' r'' h'
    rw [h] at h'
    cases h'
    rcases onPacket_cases c env k p with ⟨hp, act, ho⟩ | ⟨hp, e, ho, hne⟩
    · simp [hp, ho, Survives]
    · simp [hp, ho, hne]
  · simp_all

theorem survives_chunk {x : Chunk} {rest : List UInt8} (hx : x.valid = true)
    (hr : r.recv = x.bytes ++ rest) (ih : ∀ buff, Survives cbor c env (k + 1) ⟨rest, buff⟩
      ↔ HarmlessFrom cbor c env (k + 1) rest) :
    r.Survives cbor c env k ↔ HarmlessFrom cbor c env k (x.bytes ++ rest) := by
  rw [harmlessFrom_chunk hx]
  cases x with
  | word w =>
    simp only [Chunk.valid, decide_eq_true_eq] at hx
    rw [survives_skipped (readPacket_word cbor hx.1 hx.2 hr), ih]
    simp [Chunk.Harmless]
  | frame v ct body =>
    simp only [Chunk.valid, decide_eq_true_eq] at hx
    have hturn := readPacket_frame cbor hx.2.1 hx.2.2 hr
    by_cases hct : ct = 0
    · rw [if_pos hct] at hturn
      rcases hp : cbor.fromSlice body with _ | p <;> simp only [hp] at hturn
      · rw [survives_skipped hturn, ih]
        simp [Chunk.Harmless, hct, hp]
      · rw [survives_packet hturn, ih]
        simp [Chunk.Harmless, hct, hp]
    · rw [if_neg hct] at hturn
      exact iff_of_false (not_survives_panicked hturn) fun h => hct h.1.1

/-- By induction on the bytes left, whatever the buffer holds. -/
theorem survives_iff (k : ℕ) (bs buff : List UInt8) :
    Survives cbor c env k ⟨bs, buff⟩ ↔ HarmlessFrom cbor c env k bs := by
  have hend : ∀ (k : ℕ) (buff : List UInt8), Survives cbor c env k ⟨[], buff⟩ :=
    fun k buff => survives_ended (readPacket_short cbor (by simp))
  induction hn : bs.length using Nat.strong_induction_on generalizing k bs buff with
  | _ n ih =>
    cases cut bs with
    | short h => exact iff_of_true (survives_ended (readPacket_short cbor h)) (harmlessFrom_short h)
    | @chunk x rest hx =>
      have hlen := length_bytes hx
      rw [List.length_append] at hn
      exact survives_chunk hx rfl fun buff => ih rest.length (by omega) (k + 1) rest buff rfl
    | @tornHeader t h =>
      refine iff_of_true ?_ (harmlessFrom_tornHeader h)
      have hturn : readPacket cbor ⟨mbus ++ t, buff⟩ = .skipped ⟨[], mbus⟩ := by
        unfold readPacket
        rw [readExact_append length_mbus]
        simp only [show mbus ≠ ping by decide, if_false, ne_eq, not_true_eq_false]
        rw [readExact_short h]
      rw [survives_skipped hturn]
      exact hend _ _
    | @tornBody v ct size t hct hmax h =>
      refine iff_of_true ?_ (harmlessFrom_tornBody hmax h)
      have hsize : size < 18446744073709551616 := by
        unfold vecMax at hmax
        omega
      obtain ⟨buff', hturn⟩ := readPacket_header cbor (r := ⟨_, buff⟩) hct hsize rfl
      rw [readBody, if_neg (by omega), readExact_short h] at hturn
      rw [survives_skipped hturn]
      exact hend _ _
    | @tooLarge v ct size t hct hsize hmax =>
      refine iff_of_false ?_ (not_harmlessFrom_tooLarge hsize hmax)
      obtain ⟨buff', hturn⟩ := readPacket_header cbor (r := ⟨_, buff⟩) hct hsize rfl
      rw [readBody, if_pos hmax] at hturn
      exact not_survives_panicked hturn

end TcpReader

/-- The stream of a connection gets to its end, whatever it has yielded on the way, exactly on
harmless bytes. -/
theorem inflow_ends_iff (cbor : PacketCbor) (c : Codec S) (env : Surroundings) (bs : List UInt8) :
    (TcpReader.inflow cbor c env 0 ⟨bs, []⟩).2 = .ended ↔ HarmlessFrom cbor c env 0 bs :=
  TcpReader.survives_iff 0 bs []

/-- A frame of content type 1, with no body. -/
theorem content_type_panics : ¬ ∀ bs : List UInt8,
    (TcpReader.inflow flushCbor Flag.codec ⟨fun _ => true, fun _ => true⟩ 0 ⟨bs, []⟩).2
      = .ended := by
  intro h
  have hfrom := (TcpReader.survives_iff 0 _ []).1 (h (Chunk.frame 1 1 []).bytes)
  have hchunk := (hfrom [.frame 1 1 []] [] (by simp; rfl) (by simp)).1 0 _ rfl
  exact absurd hchunk.1 (by simp)

end MessageBus
