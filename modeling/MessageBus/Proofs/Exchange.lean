import MessageBus.Proofs.Tokens

/-!
# Requests over a pair of relays

No two tokens of a state ever have one key of a waiter table or one call, and a waiter's key is not
free while a token has it. So what a caller gets is what its own request ended with on the other
side, and no request is served twice.
-/

namespace MessageBus

section Parts

variable {S : Type} {c : Codec S} {L : Side → Endpoint} {s s' : Exchange S}
  {x : Side} {new old : List (Side × Token S)}

namespace Exchange

theorem handover_of_parts {new' old' : List (Side × Token S)}
    (hx : Handover new old (s.part x c L) (s'.part x c L))
    (hy : Handover new' old' (s.part x.other c L) (s'.part x.other c L)) :
    Handover (new ++ new') (old ++ old') (s.tokens c L) (s'.tokens c L) := by
  intro q
  have := hx q
  have := hy q
  rw [s.countP_tokens x, s'.countP_tokens x, List.countP_append, List.countP_append]
  omega

/-- Of a side, the wire and the process may change, and the log may grow. -/
theorem handover_part {p : Process S} {gained lost : List (Side × Token S)}
    {rs : List (ServedRequest S)} (hp : s'.link.procs x = p)
    (hserved : s'.served x = s.served x ++ rs)
    (hwire : Handover gained lost ((s.link.wire x).filterMap (wireToken? x c))
      ((s'.link.wire x).filterMap (wireToken? x c)))
    (hproc : Handover new old ((s.link.procs x).tokens x (L x)) (p.tokens x (L x))) :
    Handover (gained ++ new ++ rs.map fun r => (x.other, .served r)) (lost ++ old) (s.part x c L)
      (s'.part x c L) := by
  unfold part
  rw [hp, hserved, List.map_append]
  exact (hwire.join hproc).append (.added _ _)

/-- The other side's wire may have lost what it had. -/
theorem handover_other {lost : List (Side × Token S)} (hp : s'.link.procs x = s.link.procs x)
    (hserved : s'.served x = s.served x)
    (hwire : Handover [] lost ((s.link.wire x).filterMap (wireToken? x c))
      ((s'.link.wire x).filterMap (wireToken? x c))) :
    Handover [] lost (s.part x c L) (s'.part x c L) := by
  have h := handover_part (L := L) hp (hserved.trans (List.append_nil _).symm) hwire (.refl _)
  simpa only [List.map_nil, List.append_nil] using h

/-- A step of one side, which may take a frame of the other one's off the wire. -/
theorem handover_tokens {p : Process S} {gained lost taken : List (Side × Token S)}
    {rs : List (ServedRequest S)} (hprocs : s'.link.procs = (s.link.set x p).procs)
    (hserved : s'.served = Function.update s.served x (s.served x ++ rs))
    (hwire : Handover gained lost ((s.link.wire x).filterMap (wireToken? x c))
      ((s'.link.wire x).filterMap (wireToken? x c)))
    (hproc : Handover new old ((s.link.procs x).tokens x (L x)) (p.tokens x (L x)))
    (htaken : Handover [] taken ((s.link.wire x.other).filterMap (wireToken? x.other c))
      ((s'.link.wire x.other).filterMap (wireToken? x.other c))) :
    Handover (gained ++ new ++ rs.map fun r => (x.other, .served r)) (lost ++ old ++ taken)
      (s.tokens c L) (s'.tokens c L) := by
  have hp : s'.link.procs x = p := by
    rw [hprocs, LinkState.procs_set, if_pos rfl]
  have hp' : s'.link.procs x.other = s.link.procs x.other := by
    rw [hprocs, LinkState.procs_set, if_neg (Side.other_ne x)]
  have hx := handover_part (c := c) hp (by rw [hserved, Function.update_self]) hwire hproc
  have hy := handover_other (L := L) hp' (by rw [hserved, Function.update_of_ne (Side.other_ne x)])
    htaken
  have := handover_of_parts hx hy
  rwa [List.append_nil] at this

/-- A step that leaves the wires alone. -/
theorem handover_act {p : Process S} {rs : List (ServedRequest S)}
    (hprocs : s'.link.procs = (s.link.set x p).procs) (hwire : s'.link.wire = s.link.wire)
    (hserved : s'.served = Function.update s.served x (s.served x ++ rs))
    (hproc : Handover new old ((s.link.procs x).tokens x (L x)) (p.tokens x (L x))) :
    Handover (new ++ rs.map fun r => (x.other, .served r)) old (s.tokens c L) (s'.tokens c L) := by
  have hsame : ∀ y, Handover [] [] ((s.link.wire y).filterMap (wireToken? y c))
      ((s'.link.wire y).filterMap (wireToken? y c)) := by
    intro y
    rw [hwire]
    exact .refl _
  have h := handover_tokens hprocs hserved (hsame x) hproc (hsame x.other)
  simpa only [List.nil_append, List.append_nil] using h

end Exchange

end Parts

section System

variable {S : Type} {c : Codec S} {L : Side → Endpoint} {s s' : Exchange S} {x : Side}

/-- The call whose request a call serves. -/
def Call.serves? (d : Call S) : Option ℕ :=
  if d.kind.isReq && d.frame.isSome then some d.origin else none

def Token.hasKey (x : Side) (k : Slab.Key) (t : Side × Token S) : Bool :=
  t.1 = x && t.2.key? = some k

def Token.hasOrigin (o : ℕ) (t : Side × Token S) : Bool := t.2.origin? = some o

namespace Exchange

/-- A user of the side has asked for the message by that call. -/
def Asked (s : Exchange S) (x : Side) (origin : ℕ) (msg : S) : Prop :=
  ∃ kind : CallKind, kind.isReq = true ∧ s.asked[origin]? = some (x, kind, msg)

/-- The request of the call was served on the other side, with this result. -/
def Answers (s : Exchange S) (x : Side) (origin : ℕ)
    (res : Except (Error Unit GenericError) S) : Prop :=
  ∃ r ∈ s.served x.other, r.origin = origin ∧ res = relayed r.res

def slot (s : Exchange S) (x : Side) (k : Slab.Key) : Option ℕ :=
  (s.link.procs x).wrapper.waiters.slot k

def Sound (s : Exchange S) (x : Side) : Token S → Prop
  | .asking origin msg => s.Asked x origin msg
  | .sent key origin msg | .serving key origin msg =>
    s.slot x key = some origin ∧ s.Asked x origin msg
  | .served r => s.Asked x r.origin r.msg
  | .answered key res => ∃ origin, s.slot x key = some origin ∧ s.Answers x origin res

/-- What the callers of both sides get, and what is done for them. -/
structure Correlated (s : Exchange S) : Prop where
  answered : ∀ x origin res, (s.link.procs x).chans origin = .sent res → s.Answers x origin res
  /-- What is served was asked for by a user of the other side, with the same message. -/
  asked : ∀ x, ∀ r ∈ s.served x, s.Asked x.other r.origin r.msg
  serving : ∀ x, ∀ d ∈ (s.link.procs x).calls, d.frame ≠ none → d.kind.isReq = true →
    s.Asked x.other d.origin d.msg
  /-- No request is served by two calls, under way or ended. -/
  once : ∀ x, ((s.link.procs x).calls.filterMap Call.serves?
    ++ (s.served x).map (·.origin)).Nodup

structure Inv (c : Codec S) [Message S] (L : Side → Endpoint) (s : Exchange S) : Prop where
  fits : ∀ x, (s.link.procs x).Fits (L x)
  sound : ∀ t ∈ s.tokens c L, s.Sound t.1 t.2
  key : ∀ x k, (s.tokens c L).countP (Token.hasKey x k) ≤ 1
  once : ∀ o, (s.tokens c L).countP (Token.hasOrigin o) ≤ 1
  answered : ∀ x origin res, (s.link.procs x).chans origin = .sent res → s.Answers x origin res
  issued : s.asked.length = s.link.issued

/-- `s'` has logged all that `s` has. -/
structure Grows (s s' : Exchange S) : Prop where
  asked : ∀ (o : ℕ) (v : Side × CallKind × S), s.asked[o]? = some v → s'.asked[o]? = some v
  served : ∀ x r, r ∈ s.served x → r ∈ s'.served x

theorem Grows.answers (h : Grows s s') {origin : ℕ} {res : Except (Error Unit GenericError) S}
    (ha : s.Answers x origin res) : s'.Answers x origin res := by
  obtain ⟨r, hr, heq⟩ := ha
  exact ⟨r, h.served _ r hr, heq⟩

theorem Grows.asks (h : Grows s s') {origin : ℕ} {msg : S} (ha : s.Asked x origin msg) :
    s'.Asked x origin msg := by
  obtain ⟨kind, hreq, ha⟩ := ha
  exact ⟨kind, hreq, h.asked _ _ ha⟩

theorem Grows.sound (h : Grows s s') {t : Token S} (ht : s.Sound x t)
    (hslot : ∀ k, t.key? = some k → s'.slot x k = s.slot x k) : s'.Sound x t := by
  rcases t with _ | _ | _ | _ | ⟨key, res⟩
  · exact h.asks ht
  · exact ⟨(hslot _ rfl).trans ht.1, h.asks ht.2⟩
  · exact ⟨(hslot _ rfl).trans ht.1, h.asks ht.2⟩
  · exact h.asks ht
  · obtain ⟨origin, hkey, ha⟩ := ht
    exact ⟨origin, (hslot _ rfl).trans hkey, h.answers ha⟩

theorem Sound.slot_isSome {t : Token S} (h : s.Sound x t) {k : Slab.Key} (hk : t.key? = some k) :
    s.slot x k ≠ none := by
  rcases t with _ | _ | _ | _ | ⟨key, res⟩
  · cases hk
  · cases hk
    simp [h.1]
  · cases hk
    simp [h.1]
  · cases hk
  · cases hk
    obtain ⟨origin, hkey, -⟩ := h
    simp [hkey]

theorem Sound.origin_lt {t : Token S} (h : s.Sound x t) {o : ℕ} (ho : t.origin? = some o) :
    o < s.asked.length := by
  have hlt : ∀ {msg}, s.Asked x o msg → o < s.asked.length := by
    rintro msg ⟨kind, -, ha⟩
    exact (List.getElem?_eq_some_iff.1 ha).1
  rcases t with _ | _ | _ | _ | _
  · cases ho
    exact hlt h
  · cases ho
    exact hlt h.2
  · cases ho
    exact hlt h.2
  · cases ho
    exact hlt h
  · cases ho

theorem slot_move {p : Process S} (hprocs : s'.link.procs = (s.link.set x p).procs) (y : Side)
    (k : Slab.Key) : s'.slot y k = if y = x then p.wrapper.waiters.slot k else s.slot y k := by
  unfold slot
  rw [hprocs, LinkState.procs_set]
  split_ifs <;> rfl

theorem served_update (s : Exchange S) (x : Side) :
    Function.update s.served x (s.served x ++ []) = s.served := by
  rw [List.append_nil, Function.update_eq_self]

theorem mem_tokens {t : Side × Token S} (h : t ∈ s.part x c L) : t ∈ s.tokens c L := by
  cases x
  · exact List.mem_append_left _ h
  · exact List.mem_append_right _ h

/-- A call that serves a request has its token. -/
theorem serves_le (x : Side) (e : Endpoint) (o : ℕ) (calls : List (Call S)) :
    (calls.filterMap Call.serves?).count o
      ≤ (calls.filterMap (Call.token? x e)).countP (Token.hasOrigin o) := by
  rw [List.count_filterMap, List.countP_filterMap]
  refine List.countP_mono_left fun d _ hd => ?_
  unfold Call.serves? at hd
  split_ifs at hd with hserves
  · rw [Bool.and_eq_true] at hserves
    obtain ⟨hreq, hframe⟩ := hserves
    obtain ⟨mid, hmid⟩ := Option.isSome_iff_exists.1 hframe
    have ho : d.origin = o := by simpa using hd
    simp [Call.token?, hreq, hmid, Token.hasOrigin, Token.origin?, ho]
  · simp at hd

theorem served_eq (x : Side) (o : ℕ) (rs : List (ServedRequest S)) :
    (rs.map (·.origin)).count o
      = (rs.map fun r => (x, Token.served r)).countP (Token.hasOrigin o) := by
  rw [List.count_eq_countP, List.countP_map, List.countP_map]
  refine List.countP_congr fun r _ => ?_
  simp [Token.hasOrigin, Token.origin?]

variable [Message S]

/-- A free key is no token's. -/
theorem Inv.key_free (h : Inv c L s) {k : Slab.Key} (hk : s.slot x k = none) :
    (s.tokens c L).countP (Token.hasKey x k) = 0 := by
  rw [List.countP_eq_zero]
  intro t ht hkey
  simp only [Token.hasKey, Bool.and_eq_true, decide_eq_true_eq] at hkey
  obtain ⟨rfl, hkey⟩ := hkey
  exact (h.sound t ht).slot_isSome hkey hk

theorem Inv.origin_free (h : Inv c L s) {o : ℕ} (ho : s.asked.length ≤ o) :
    (s.tokens c L).countP (Token.hasOrigin o) = 0 := by
  rw [List.countP_eq_zero]
  intro t ht hkey
  have hlt := (h.sound t ht).origin_lt (of_decide_eq_true hkey)
  omega

/-- One side moves on, with tokens it gives and takes; no token but a new one has a key whose waiter
is another now. -/
theorem Inv.of_flow (h : Inv c L s) {p : Process S} {new old : List (Side × Token S)}
    (hprocs : s'.link.procs = (s.link.set x p).procs) (hgrows : Grows s s')
    (hissued : s'.asked.length = s'.link.issued) (hfits : p.Fits (L x))
    (hhand : Handover new old (s.tokens c L) (s'.tokens c L))
    (hnew : ∀ t ∈ new, s'.Sound t.1 t.2)
    (hslot : ∀ k, p.wrapper.waiters.slot k ≠ s.slot x k →
      ∀ t ∈ s'.tokens c L, Token.hasKey x k t = true → t ∈ new)
    (hkey : ∀ y k, new.countP (Token.hasKey y k) ≤ old.countP (Token.hasKey y k)
      ∨ new.countP (Token.hasKey y k) ≤ 1 ∧ (s.tokens c L).countP (Token.hasKey y k) = 0)
    (honce : ∀ o, new.countP (Token.hasOrigin o) ≤ old.countP (Token.hasOrigin o)
      ∨ new.countP (Token.hasOrigin o) ≤ 1 ∧ (s.tokens c L).countP (Token.hasOrigin o) = 0)
    (hanswered : ∀ o res, p.chans o = .sent res →
      (s.link.procs x).chans o = .sent res ∨ s'.Answers x o res) : Inv c L s' where
  fits y := by
    rw [hprocs]
    exact LinkState.forall_set (P := fun y p => p.Fits (L y)) h.fits hfits y
  sound t ht := by
    by_cases htn : t ∈ new
    · exact hnew t htn
    · have hts := (hhand.mem ht).resolve_left htn
      refine hgrows.sound (h.sound t hts) fun k hk => ?_
      rw [slot_move hprocs]
      split_ifs with hx
      · by_contra hne
        refine htn (hslot k (hx ▸ hne) t ht ?_)
        simp [Token.hasKey, hx, hk]
      · rfl
  key y k := hhand.at_most_one (h.key y k) (hkey y k)
  once o := hhand.at_most_one (h.once o) (honce o)
  answered y o res hc := by
    rw [hprocs, LinkState.procs_set] at hc
    split_ifs at hc with hy
    · rcases hanswered o res hc with hc | ha
      · exact hgrows.answers (hy ▸ h.answered x o res hc)
      · exact hy ▸ ha
    · exact hgrows.answers (h.answered y o res hc)
  issued := hissued

/-- One side moves on without any new token or waiter. -/
theorem Inv.of_quiet (h : Inv c L s) {p : Process S} {old : List (Side × Token S)}
    (hprocs : s'.link.procs = (s.link.set x p).procs) (hgrows : Grows s s')
    (hissued : s'.asked.length = s'.link.issued) (hfits : p.Fits (L x))
    (hhand : Handover [] old (s.tokens c L) (s'.tokens c L))
    (hwaiters : p.wrapper.waiters = (s.link.procs x).wrapper.waiters)
    (hchans : ∀ o res, p.chans o = .sent res → (s.link.procs x).chans o = .sent res) :
    Inv c L s' := by
  refine h.of_flow hprocs hgrows hissued hfits hhand (by simp) (fun k hk => ?_)
    (fun _ _ => .inl (Nat.zero_le _)) (fun _ => .inl (Nat.zero_le _)) fun o res hc => .inl ?_
  · refine absurd ?_ hk
    rw [hwaiters, slot]
  · exact hchans o res hc

end Exchange

end System

section Steps

variable {S : Type} [CloneMessage S] {c : Codec S} {L : Side → Endpoint} {s s' : Exchange S}
  {x : Side}

namespace Exchange

theorem grows_step {l : ExchangeLabel S} (hs : s.step c L x l = some s') : Grows s s' := by
  rcases l with l | tx
  · obtain ⟨link, -, rfl⟩ := Option.map_eq_some_iff.1 hs
    refine ⟨fun o v ho => ?_, fun y r hr => ?_⟩
    · exact (List.getElem?_append_left (List.getElem?_eq_some_iff.1 ho).1).trans ho
    · dsimp only
      rw [Function.update_apply]
      split_ifs with hy
      · exact List.mem_append_left _ (hy ▸ hr)
      · exact hr
  · cases hs
    exact ⟨fun _ _ => id, fun _ _ => id⟩

/-- A request that enters its waiter is asked for under a key that no other has. -/
theorem inv_ask (h : Inv c L s) {p : Process S} {key : Slab.Key} {origin : ℕ} {msg : S}
    {new : List (Side × Token S)} (hprocs : s'.link.procs = (s.link.set x p).procs)
    (hgrows : Grows s s') (hissued : s'.asked.length = s'.link.issued) (hfits : p.Fits (L x))
    (hnew : new = [] ∨ new = [(x, .sent key origin msg)])
    (hhand : Handover new [(x, .asking origin msg)] (s.tokens c L) (s'.tokens c L))
    (hwaiters : (s.link.procs x).wrapper.waiters.insert key origin = some p.wrapper.waiters)
    (hchans : p.chans = (s.link.procs x).chans) : Inv c L s' := by
  obtain ⟨hfree, hinsert⟩ := Slab.insert_eq_some.1 hwaiters
  have hzero := h.key_free hfree
  have hasks : s.Asked x origin msg := by
    refine h.sound (x, .asking origin msg) (hhand.mem_old List.mem_cons_self ?_)
    rcases hnew with rfl | rfl <;> simp
  refine h.of_flow hprocs hgrows hissued hfits hhand (fun t ht => ?_) (fun k hk t ht hkey => ?_)
    (fun y k => ?_) (fun o => .inl ?_) fun o res hc => .inl (hchans ▸ hc)
  · rcases hnew with rfl | rfl
    · cases ht
    · obtain rfl := List.mem_singleton.1 ht
      refine ⟨?_, hgrows.asks hasks⟩
      rw [slot_move hprocs, if_pos rfl, hinsert]
      exact Function.update_self _ _ _
  · have hk : k = key := by
      by_contra hne
      refine hk ?_
      rw [hinsert]
      exact Function.update_of_ne hne _ _
    subst hk
    refine (hhand.mem ht).resolve_right fun hts => ?_
    exact absurd hkey (List.countP_eq_zero.1 hzero t hts)
  · rcases hnew with rfl | rfl
    · exact .inl (Nat.zero_le _)
    · by_cases hyk : y = x ∧ k = key
      · obtain ⟨rfl, rfl⟩ := hyk
        exact .inr ⟨List.countP_le_length, hzero⟩
      · refine .inl ?_
        rw [List.countP_eq_zero.2]
        · exact Nat.zero_le _
        · intro t ht
          obtain rfl := List.mem_singleton.1 ht
          simp only [Token.hasKey, Token.key?, Bool.and_eq_true, decide_eq_true_eq,
            Option.some.injEq]
          exact fun heq => hyk ⟨heq.1.symm, heq.2.symm⟩
  · rcases hnew with rfl | rfl
    · exact Nat.zero_le _
    · exact Nat.le_of_eq rfl

/-- A request that was served is logged, and answered if its result can be sent. -/
theorem inv_serve (h : Inv c L s) {p : Process S} {key : Slab.Key} {r : ServedRequest S}
    {new : List (Side × Token S)} (hprocs : s'.link.procs = (s.link.set x p).procs)
    (hgrows : Grows s s') (hissued : s'.asked.length = s'.link.issued) (hfits : p.Fits (L x))
    (hserved : r ∈ s'.served x)
    (hnew : new = [] ∨ new = [(x.other, .answered key (relayed r.res))])
    (hhand : Handover (new ++ [(x.other, .served r)]) [(x.other, .serving key r.origin r.msg)]
      (s.tokens c L) (s'.tokens c L))
    (hwaiters : p.wrapper.waiters = (s.link.procs x).wrapper.waiters)
    (hchans : p.chans = (s.link.procs x).chans) : Inv c L s' := by
  obtain ⟨hslot, hasks⟩ : s.slot x.other key = some r.origin ∧ s.Asked x.other r.origin r.msg := by
    refine h.sound (x.other, .serving key r.origin r.msg) (hhand.mem_old List.mem_cons_self ?_)
    rcases hnew with rfl | rfl <;> simp
  refine h.of_flow hprocs hgrows hissued hfits hhand (fun t ht => ?_) (fun k hk => ?_)
    (fun y k => .inl ?_) (fun o => .inl ?_) fun o res hc => .inl (hchans ▸ hc)
  · rcases List.mem_append.1 ht with ht | ht
    · rcases hnew with rfl | rfl
      · cases ht
      · obtain rfl := List.mem_singleton.1 ht
        refine ⟨r.origin, ?_, r, ?_, rfl, rfl⟩
        · rw [slot_move hprocs, if_neg (Side.other_ne x), hslot]
        · rw [Side.other_other]
          exact hserved
    · obtain rfl := List.mem_singleton.1 ht
      exact hgrows.asks hasks
  · refine absurd ?_ hk
    rw [hwaiters, slot]
  · rcases hnew with rfl | rfl
    · simp [List.countP_cons, Token.hasKey, Token.key?]
    · simp [List.countP_cons, Token.hasKey, Token.key?]
  · rcases hnew with rfl | rfl <;> exact Nat.le_of_eq rfl

/-- A request that is read goes on with the call that serves it. -/
theorem inv_spawn (h : Inv c L s) {p : Process S} {key : Slab.Key} {origin : ℕ} {msg : S}
    (hprocs : s'.link.procs = (s.link.set x p).procs) (hgrows : Grows s s')
    (hissued : s'.asked.length = s'.link.issued) (hfits : p.Fits (L x))
    (hhand : Handover [(x.other, .serving key origin msg)] [(x.other, .sent key origin msg)]
      (s.tokens c L) (s'.tokens c L))
    (hwaiters : p.wrapper.waiters = (s.link.procs x).wrapper.waiters)
    (hchans : p.chans = (s.link.procs x).chans) : Inv c L s' := by
  obtain ⟨hslot, hasks⟩ : s.slot x.other key = some origin ∧ s.Asked x.other origin msg :=
    h.sound (x.other, .sent key origin msg) (hhand.mem_old List.mem_cons_self (by simp))
  refine h.of_flow hprocs hgrows hissued hfits hhand (fun t ht => ?_) (fun k hk => ?_)
    (fun y k => .inl (Nat.le_of_eq rfl)) (fun o => .inl (Nat.le_of_eq rfl))
    fun o res hc => .inl (hchans ▸ hc)
  · obtain rfl := List.mem_singleton.1 ht
    refine ⟨?_, hgrows.asks hasks⟩
    rw [slot_move hprocs, if_neg (Side.other_ne x), hslot]
  · refine absurd ?_ hk
    rw [hwaiters, slot]

/-- An answer that is read goes to the waiter of its key, which nothing under way has then. -/
theorem inv_answer (h : Inv c L s) {p : Process S} {key : Slab.Key}
    {res : Except (Error Unit GenericError) S} (hprocs : s'.link.procs = (s.link.set x p).procs)
    (hgrows : Grows s s') (hissued : s'.asked.length = s'.link.issued) (hfits : p.Fits (L x))
    (hhand : Handover [] [(x, .answered key res)] (s.tokens c L) (s'.tokens c L))
    (hwaiters : ∀ k, p.wrapper.waiters.slot k = if k = key then none else s.slot x k)
    (hchans : ∀ o r, p.chans o = .sent r →
      (s.link.procs x).chans o = .sent r ∨ s.slot x key = some o ∧ r = res) : Inv c L s' := by
  obtain ⟨origin, hslot, hanswers⟩ : ∃ origin, s.slot x key = some origin
      ∧ s.Answers x origin res :=
    h.sound (x, .answered key res) (hhand.mem_old List.mem_cons_self (by simp))
  refine h.of_flow hprocs hgrows hissued hfits hhand (by simp) (fun k hk t ht hkey => ?_)
    (fun _ _ => .inl (Nat.zero_le _)) (fun _ => .inl (Nat.zero_le _)) fun o r hc => ?_
  · have hk : k = key := by
      by_contra hne
      exact hk ((hwaiters k).trans (if_neg hne))
    subst hk
    have hcount := hhand (Token.hasKey x k)
    have hone := h.key x k
    have hpos := List.countP_pos_iff.2 ⟨t, ht, hkey⟩
    have hold : [(x, (Token.answered k res : Token S))].countP (Token.hasKey x k) = 1 := by
      simp [Token.hasKey, Token.key?]
    rw [hold, List.countP_nil] at hcount
    omega
  · rcases hchans o r hc with hc | ⟨ho, rfl⟩
    · exact .inl hc
    · rw [hslot, Option.some.injEq] at ho
      exact .inr (hgrows.answers (ho ▸ hanswers))

theorem inv_act (h : Inv c L s) {l : ProcLabel S}
    (hs : s.step c L x (.link (.act l)) = some s') : Inv c L s' := by
  have hgrows := grows_step hs
  obtain ⟨link, hlink, heq⟩ := Option.map_eq_some_iff.1 hs
  obtain ⟨p, hp, rfl⟩ := Option.map_eq_some_iff.1 hlink
  have hfits := Process.fits_act (h.fits x) hp
  have hprocs : s'.link.procs = (s.link.set x p).procs := by rw [← heq]
  have hwire : s'.link.wire = s.link.wire := by
    rw [← heq]
    rfl
  have hissued : s'.asked.length = s'.link.issued := by
    rw [← heq]
    exact (congrArg List.length (List.append_nil _)).trans h.issued
  have hserved : s'.served = Function.update s.served x
      (s.served x ++ ((s.link.procs x).served? (.act l)).toList) := by rw [← heq]
  cases Process.turn (x := x) (h.fits x) hp with
  | idle hand waiters chans served =>
    rw [served] at hserved
    have hhand := handover_act (c := c) hprocs hwire hserved hand
    exact h.of_quiet hprocs hgrows hissued hfits hhand waiters fun o res hc => chans ▸ hc
  | ask hnew hand waiters chans served =>
    rw [served] at hserved
    have hhand := handover_act (c := c) hprocs hwire hserved hand
    simp only [Option.toList_none, List.map_nil, List.append_nil] at hhand
    exact inv_ask h hprocs hgrows hissued hfits hnew hhand waiters chans
  | @serve key r new hnew hand waiters chans served =>
    rw [served] at hserved
    have hhand := handover_act (c := c) hprocs hwire hserved hand
    refine inv_serve h hprocs hgrows hissued hfits ?_ hnew hhand waiters chans
    rw [hserved, Function.update_self]
    exact List.mem_append_right _ (List.mem_singleton_self r)

/-- What a frame of the other side does. -/
theorem inv_read (h : Inv c L s) (hs : s.step c L x (.link .read) = some s') : Inv c L s' := by
  have hgrows := grows_step hs
  obtain ⟨link, hlink, heq⟩ := Option.map_eq_some_iff.1 hs
  obtain ⟨pkt, origin, rest, hst, -, hw, rfl⟩ := LinkState.read_cases hlink
  obtain ⟨hfits, hears⟩ := Process.hears_read (x := x) c (h.fits x) hst pkt origin
  have hprocs : s'.link.procs
      = (s.link.set x ((s.link.procs x).read c (L x) pkt origin)).procs := by rw [← heq]
  have hissued : s'.asked.length = s'.link.issued := by
    rw [← heq]
    exact (congrArg List.length (List.append_nil _)).trans h.issued
  have hserved : s'.served = Function.update s.served x (s.served x ++ []) := by
    rw [← heq]
    rfl
  have htaken : Handover [] (wireToken? x.other c (pkt, origin)).toList
      ((s.link.wire x.other).filterMap (wireToken? x.other c))
      ((s'.link.wire x.other).filterMap (wireToken? x.other c)) := by
    have hrest : s'.link.wire x.other = rest := by
      rw [← heq]
      exact Function.update_self _ _ _
    rw [hrest, hw]
    exact .tail _ _ _
  have hwire : Handover [] [] ((s.link.wire x).filterMap (wireToken? x c))
      ((s'.link.wire x).filterMap (wireToken? x c)) := by
    have hsame : s'.link.wire x = s.link.wire x := by
      rw [← heq]
      exact Function.update_of_ne (Side.other_ne x).symm _ _
    rw [hsame]
    exact .refl _
  generalize wireToken? x.other c (pkt, origin) = t at hears htaken
  rcases hears with ⟨hand, waiters, chans⟩ | ⟨hand, waiters, chans⟩ | ⟨hand, waiters, chans⟩
  · have hhand := handover_tokens hprocs hserved hwire hand htaken
    exact h.of_quiet hprocs hgrows hissued hfits hhand waiters fun o res hc => chans ▸ hc
  · have hhand := handover_tokens hprocs hserved hwire hand htaken
    exact inv_spawn h hprocs hgrows hissued hfits hhand waiters chans
  · have hhand := handover_tokens hprocs hserved hwire hand htaken
    exact inv_answer h hprocs hgrows hissued hfits hhand waiters chans

/-- A process with one call more. -/
def asking (s : Exchange S) (x : Side) (kind : CallKind) (msg : S) : Process S :=
  { s.link.procs x with
    calls := (s.link.procs x).calls ++ [⟨s.link.issued, kind, msg, none, none⟩] }

/-- A user asks, under a number that nobody has. -/
theorem inv_call (h : Inv c L s) {kind : CallKind} {msg : S}
    (hs : s.step c L x (.link (.call kind msg)) = some s') : Inv c L s' := by
  have hgrows := grows_step hs
  obtain ⟨hprocs, hwire, hissued, hasked, hserved⟩ :
      s'.link.procs = (s.link.set x (s.asking x kind msg)).procs ∧ s'.link.wire = s.link.wire
        ∧ s'.link.issued = s.link.issued + 1 ∧ s'.asked = s.asked ++ [(x, kind, msg)]
        ∧ s'.served = Function.update s.served x (s.served x ++ []) := by
    cases hs
    exact ⟨rfl, rfl, rfl, rfl, rfl⟩
  have hfits : (s.asking x kind msg).Fits (L x) := by
    refine ⟨(h.fits x).selfId, fun d hd => ?_⟩
    rcases List.mem_append.1 hd with hd | hd
    · exact (h.fits x).calls d hd
    · obtain rfl := List.mem_singleton.1 hd
      exact ⟨fun hf => absurd rfl hf, by simp⟩
  have htoken : (⟨s.link.issued, kind, msg, none, none⟩ : Call S).token? x (L x)
      = if kind.isReq then some (x, .asking s.link.issued msg) else none := rfl
  have hproc : Handover _ [] ((s.link.procs x).tokens x (L x))
      ((s.asking x kind msg).tokens x (L x)) := (handover_new_call _ _).append (.refl _)
  have hhand := handover_act (c := c) hprocs hwire hserved hproc
  rw [htoken] at hhand
  simp only [List.map_nil, List.append_nil] at hhand
  have hfree := h.origin_free (Nat.le_of_eq h.issued)
  refine h.of_flow hprocs hgrows ?_ hfits hhand (fun t ht => ?_) (fun k hk => absurd rfl hk)
    (fun y k => .inl ?_) (fun o => ?_) fun o res hc => .inl hc
  · rw [hasked, hissued, List.length_append, h.issued]
    rfl
  · by_cases hreq : kind.isReq = true
    · rw [if_pos hreq] at ht
      obtain rfl := List.mem_singleton.1 ht
      refine ⟨kind, hreq, ?_⟩
      rw [hasked, ← h.issued]
      exact List.getElem?_concat_length
    · rw [if_neg hreq] at ht
      cases ht
  · by_cases hreq : kind.isReq = true
    · simp [hreq, Token.hasKey, Token.key?]
    · simp [hreq]
  · by_cases ho : o = s.link.issued
    · subst ho
      refine .inr ⟨?_, hfree⟩
      split_ifs <;> exact Nat.le_trans List.countP_le_length (by simp)
    · refine .inl (Nat.le_of_eq ?_)
      rw [List.countP_nil, List.countP_eq_zero]
      intro t ht
      split_ifs at ht
      · obtain rfl := List.mem_singleton.1 ht
        simpa [Token.hasOrigin, Token.origin?] using fun heq => ho heq.symm
      · cases ht

/-- The writer moves an item to the wire, or drops it. -/
theorem inv_write (hc : c.Faithful) (h : Inv c L s)
    (hs : s.step c L x (.link .write) = some s') : Inv c L s' := by
  have hgrows := grows_step hs
  obtain ⟨link, hlink, heq⟩ := Option.map_eq_some_iff.1 hs
  have hserved : s'.served = Function.update s.served x (s.served x ++ []) := by
    rw [← heq]
    rfl
  have hasked : s'.asked.length = s.link.issued := by
    rw [← heq]
    exact (congrArg List.length (List.append_nil _)).trans h.issued
  obtain rfl : link = s'.link := by rw [← heq]
  rcases LinkState.write_cases hlink with ⟨items, rx, hitems, hto⟩ |
    ⟨item, origin, items, pkt, hitems, hser, hto⟩
  · have hprocs : s'.link.procs = (s.link.set x { s.link.procs x with
        relay.items := items, relay.rx := rx }).procs := by rw [hto]
    have hwire : s'.link.wire = s.link.wire := by
      rw [hto]
      rfl
    have hsub : items.Sublist (s.link.procs x).relay.items := by
      rcases hitems with rfl | ⟨o, ho⟩
      · exact List.nil_sublist _
      · rw [ho]
        exact List.sublist_cons_self _ _
    have hhand := handover_act (c := c) (L := L) hprocs hwire hserved
      (.of_sublist ((hsub.filterMap _).append_left _))
    refine h.of_quiet hprocs hgrows ?_ ?_ hhand rfl fun _ _ => id
    · rw [hasked, hto]
      rfl
    · exact ⟨(h.fits x).selfId, (h.fits x).calls⟩
  · have hprocs : s'.link.procs
        = (s.link.set x { s.link.procs x with relay.items := items }).procs := by rw [hto]
    have htoken : wireToken? x c (pkt, origin) = Outgoing.token? x (some item, origin) := by
      unfold wireToken?
      rw [ProtocolItem.deserialize_serialize hc hser]
      rfl
    have hwire : Handover (Outgoing.token? x (some item, origin)).toList []
        ((s.link.wire x).filterMap (wireToken? x c))
        ((s'.link.wire x).filterMap (wireToken? x c)) := by
      have hwx : s'.link.wire x = s.link.wire x ++ [(pkt, origin)] := by
        rw [hto]
        exact Function.update_self _ _ _
      have hlast : [(pkt, origin)].filterMap (wireToken? x c)
          = (Outgoing.token? x (some item, origin)).toList := by
        rw [List.filterMap_cons, List.filterMap_nil, htoken]
        rcases Outgoing.token? x (some item, origin) with _ | t <;> rfl
      rw [hwx, List.filterMap_append, hlast]
      exact .added _ _
    have hrest : Handover [] [] ((s.link.wire x.other).filterMap (wireToken? x.other c))
        ((s'.link.wire x.other).filterMap (wireToken? x.other c)) := by
      have hwy : s'.link.wire x.other = s.link.wire x.other := by
        rw [hto]
        exact Function.update_of_ne (Side.other_ne x) _ _
      rw [hwy]
      exact .refl _
    have hproc : Handover [] (Outgoing.token? x (some item, origin)).toList
        ((s.link.procs x).tokens x (L x))
        (Process.tokens x (L x) { s.link.procs x with relay.items := items }) := by
      have htail : Handover [] (Outgoing.token? x (some item, origin)).toList
          ((s.link.procs x).relay.tokens x) (items.filterMap (Outgoing.token? x)) := by
        rw [TcpRelay.tokens, hitems]
        exact .tail _ _ _
      exact (Handover.refl _).join htail
    have hhand := handover_tokens (c := c) hprocs hserved hwire hproc hrest
    simp only [List.map_nil, List.append_nil, List.nil_append] at hhand
    refine h.of_quiet hprocs hgrows ?_ ?_ hhand.cancel rfl fun _ _ => id
    · rw [hasked, hto]
      rfl
    · exact ⟨(h.fits x).selfId, (h.fits x).calls⟩

theorem inv_lose (h : Inv c L s) {n : ℕ} (hs : s.step c L x (.link (.lose n)) = some s') :
    Inv c L s' := by
  have hgrows := grows_step hs
  obtain ⟨hprocs, hissued, hasked, hserved, hwire⟩ :
      s'.link.procs = (s.link.set x (s.link.procs x)).procs ∧ s'.link.issued = s.link.issued
        ∧ s'.asked = s.asked ++ [] ∧ s'.served = Function.update s.served x (s.served x ++ [])
        ∧ s'.link.wire = Function.update s.link.wire x ((s.link.wire x).take n) := by
    cases hs
    exact ⟨(Function.update_eq_self _ _).symm, rfl, rfl, rfl, rfl⟩
  have hkept : Handover [] [] ((s.link.wire x).filterMap (wireToken? x c))
      ((s'.link.wire x).filterMap (wireToken? x c)) := by
    rw [hwire, Function.update_self]
    exact .of_sublist ((List.take_sublist _ _).filterMap _)
  have hrest : Handover [] [] ((s.link.wire x.other).filterMap (wireToken? x.other c))
      ((s'.link.wire x.other).filterMap (wireToken? x.other c)) := by
    rw [hwire, Function.update_of_ne (Side.other_ne x)]
    exact .refl _
  have hhand := handover_tokens (c := c) (L := L) hprocs hserved hkept (.refl _) hrest
  refine h.of_quiet hprocs hgrows ?_ (h.fits x) hhand rfl fun _ _ => id
  rw [hasked, List.append_nil, hissued, h.issued]

theorem inv_hangUp (h : Inv c L s) {tx : ℕ} (hs : s.step c L x (.hangUp tx) = some s') :
    Inv c L s' := by
  have hgrows := grows_step hs
  obtain ⟨hprocs, hissued, hasked, hserved, hwire⟩ :
      s'.link.procs = (s.link.set x { s.link.procs x with
          chans := Function.update (s.link.procs x).chans tx
            ((s.link.procs x).chans tx).drop }).procs
        ∧ s'.link.issued = s.link.issued ∧ s'.asked = s.asked
        ∧ s'.served = Function.update s.served x (s.served x ++ [])
        ∧ s'.link.wire = s.link.wire := by
    cases hs
    exact ⟨rfl, rfl, rfl, (served_update s x).symm, rfl⟩
  have hhand := handover_act (c := c) (L := L) hprocs hwire hserved (.refl _)
  refine h.of_quiet hprocs hgrows ?_ ?_ hhand rfl fun o res hc => ?_
  · rw [hasked, hissued, h.issued]
  · exact ⟨(h.fits x).selfId, (h.fits x).calls⟩
  · dsimp only at hc
    rw [Function.update_apply] at hc
    split_ifs at hc with ho
    · exact ho ▸ Oneshot.drop_eq_sent.1 hc
    · exact hc

theorem inv_start : Inv c L (start : Exchange S) where
  fits _ := ⟨by simp [start, LinkState.start, Process.new, TcpRelay.new],
    by simp [start, LinkState.start, Process.new]⟩
  sound := by simp [tokens, part, start, LinkState.start, Process.tokens, Process.new,
    TcpRelay.tokens, TcpRelay.new]
  key _ _ := Nat.zero_le 1
  once _ := Nat.zero_le 1
  answered _ _ _ hc := by cases hc
  issued := rfl

theorem inv_step (hc : c.Faithful) (h : Inv c L s) {l : Side × ExchangeLabel S}
    (hs : (exchange c L).step s l = some s') : Inv c L s' := by
  obtain ⟨x, (kind | l | _ | _ | n) | tx⟩ := l
  · exact inv_call h hs
  · exact inv_act h hs
  · exact inv_write hc h hs
  · exact inv_read h hs
  · exact inv_lose h hs
  · exact inv_hangUp h hs

theorem Inv.correlated (h : Inv c L s) : Correlated s := by
  refine ⟨h.answered, fun x r hr => ?_, fun x d hd hframe hreq => ?_,
    fun x => List.nodup_iff_count_le_one.2 fun o => ?_⟩
  · have hpart : (x.other, Token.served r) ∈ s.part x c L :=
      List.mem_append_right _ (List.mem_map.2 ⟨r, hr, rfl⟩)
    exact h.sound _ (mem_tokens hpart)
  · obtain ⟨mid, hmid⟩ := Option.ne_none_iff_exists'.1 hframe
    have htoken : d.token? x (L x)
        = some (x.other, .serving (Slab.index mid) d.origin d.msg) := by
      simp [Call.token?, hreq, hmid]
    have hpart : (x.other, Token.serving (Slab.index mid) d.origin d.msg) ∈ s.part x c L := by
      refine List.mem_append_left _ (List.mem_append_right _ (List.mem_append_left _ ?_))
      exact List.mem_filterMap.2 ⟨d, hd, htoken⟩
    exact (h.sound _ (mem_tokens hpart)).2
  · have honce := h.once o
    rw [s.countP_tokens x] at honce
    unfold part Process.tokens at honce
    simp only [List.countP_append] at honce
    have hcalls := serves_le x (L x) o (s.link.procs x).calls
    have hserved := served_eq x.other o (s.served x)
    rw [List.count_append]
    omega

end Exchange

/-- Over two joined relays a caller only ever gets what the other side's call for its own request
ended with, and no request is served twice. -/
theorem remote_requests_correlated (hc : c.Faithful) (L : Side → Endpoint)
    (hs : (exchange c L).Reachable s) : s.Correlated :=
  (Lts.invariant Exchange.inv_start (fun _ _ _ h hs => Exchange.inv_step hc h hs) hs).correlated

end Steps

/-- A bus whose relay takes requests, and one with a receiver for them. -/
def askAndServe : Side → Endpoint
  | .left => .alone (.ofList [("app::Flag", some ("app::Flag", "()"))])
  | .right =>
    { receivers := ⟨[⟨1, .relay .empty⟩, ⟨2, .localTypes "app::Flag" "app::Flag" "()"⟩], by decide⟩
      relayId := 1
      inTable := .empty
      registered := List.mem_cons_self }

section Frames

variable {S : Type} [SharedMessage S] {c : Codec S} {e : Endpoint} {p : Process S}
  {pkt : ProtocolPacket} {origin : ℕ}

theorem Process.read_send {mid : UInt64} {msg : S} {req : Bool}
    (h : pkt.deserialize c = some (.ok (.send mid msg req))) : p.read c e pkt origin
      = { p with calls := p.calls ++ [p.dispatch origin mid msg req] } := by
  unfold read
  rw [h]

theorem Process.read_event {ev : Event S GenericError}
    (h : pkt.deserialize c = some (.ok (.event ev))) : p.read c e pkt origin = p.handle ev := by
  unfold read
  rw [h]

end Frames

/-- A side reads the first frame on the other's wire. -/
theorem Exchange.step_read {S : Type} [CloneMessage S] {c : Codec S} {L : Side → Endpoint}
    {s : Exchange S} {x : Side} {pkt : ProtocolPacket} {origin : ℕ}
    {rest : List (ProtocolPacket × ℕ)} {p : Process S}
    (hst : (s.link.procs x).relay.started = true) (hin : (s.link.procs x).inbound = .reading)
    (hw : s.link.wire x.other = (pkt, origin) :: rest)
    (hp : (s.link.procs x).read c (L x) pkt origin = p) :
    (exchange c L).step s (x, .link .read) = some ⟨{ s.link.set x p with
      wire := Function.update s.link.wire x.other rest }, s.asked, s.served⟩ := by
  have hread : s.link.read c L x = some { s.link.set x p with
      wire := Function.update s.link.wire x.other rest } := by
    unfold LinkState.read
    simp only [hst, hin, hw, hp]
  show Option.map _ (s.link.read c L x) = _
  rw [hread]
  simp [LinkLabel.asked?, Process.served?]

/-- A request of the left bus that the right one's receiver answers. -/
theorem request_answered : ∃ s, (exchange Flag.codec askAndServe).Reachable s ∧ s.Correlated
    ∧ (s.link.procs .left).chans 0 = .sent (.ok ⟨true⟩) := by
  have hsent : (ProtocolItem.send (requestMid 5) (⟨false⟩ : Flag) true).serialize Flag.codec
      .cbor [] = some (.ok _) := rfl
  have hanswer : (ProtocolItem.event (.response (requestMid 5) (.ok (⟨true⟩ : Flag)))).serialize
      Flag.codec .cbor [] = some (.ok _) := rfl
  have hasked : (exchange Flag.codec askAndServe).run
      [(.left, .link (.act .init)), (.right, .link (.act .init)),
        (.left, .link (.call (.request .broadcast none none) ⟨false⟩)),
        (.left, .link (.act (.start 0))), (.left, .link (.act (.deliver 0 5 0))),
        (.left, .link .write)] = some _ := rfl
  have hread := (Lts.reachable_of_run hasked).step (Exchange.step_read (x := .right) rfl rfl rfl
    (Process.read_send (ProtocolItem.deserialize_serialize Flag.codec_faithful hsent)))
  have hserved := Lts.reachable_of_runFrom hread (show (exchange Flag.codec askAndServe).runFrom _
    [(.right, .link (.act (.start 0))), (.right, .link (.act (.deliver 0 0 0))),
      (.right, .link (.act (.finish 0 (.ok ⟨true⟩)))), (.right, .link .write)] = some _ from rfl)
  have hs := hserved.step (Exchange.step_read (x := .left) rfl rfl rfl
    (Process.read_event (ProtocolItem.deserialize_serialize Flag.codec_faithful hanswer)))
  exact ⟨_, hs, remote_requests_correlated Flag.codec_faithful askAndServe hs, rfl⟩

end MessageBus
