import MessageBus.Exchange
import MessageBus.Lib.Handover
import MessageBus.Proofs.NoEcho

/-!
# Where a request is

A user's request is a token that moves on: with the call that will send it, on its way, with the
call that serves it, in the log of what was served, and on the way back (`Process.tokens`). `turn`
and `hears_read` say what a step of a process and a frame it reads do to its tokens.
-/

namespace MessageBus

section Tokens

variable {S : Type}

/-- Where a request of a side is. -/
inductive Token (S : Type) where
  | asking (origin : ℕ) (msg : S)
  | sent (key : Slab.Key) (origin : ℕ) (msg : S)
  | serving (key : Slab.Key) (origin : ℕ) (msg : S)
  | served (r : ServedRequest S)
  | answered (key : Slab.Key) (res : Except (Error Unit GenericError) S)

/-- The waiter that waits for a request under way. -/
def Token.key? : Token S → Option Slab.Key
  | sent key _ _ | serving key _ _ | answered key _ => some key
  | asking _ _ | served _ => none

/-- The user's call of a request whose answer is not under way. -/
def Token.origin? : Token S → Option ℕ
  | asking origin _ | sent _ origin _ | serving _ origin _ => some origin
  | served r => some r.origin
  | answered _ _ => none

/-- A result as it comes out of the decoder. -/
def relayed (res : Except (Error Unit GenericError) S) : Except (Error Unit GenericError) S :=
  res.mapError fun err => .other ⟨"GenericError", err.display⟩

variable (x : Side) (e : Endpoint)

def Call.token? (d : Call S) : Option (Side × Token S) :=
  if d.kind.isReq then
    match d.frame with
    | none => if d.pending e then some (x, .asking d.origin d.msg) else none
    | some mid => some (x.other, .serving (Slab.index mid) d.origin d.msg)
  else none

def ProtocolItem.token? (origin : ℕ) : ProtocolItem S → Option (Side × Token S)
  | .send mid msg true => some (x, .sent (Slab.index mid) origin msg)
  | .event (.response mid res) => some (x.other, .answered (Slab.index mid) res)
  | _ => none

def Outgoing.token? (o : Outgoing S) : Option (Side × Token S) :=
  o.1.bind fun item => item.arrived.token? x o.2

def TcpRelay.tokens (r : TcpRelay S) : List (Side × Token S) :=
  r.items.filterMap (Outgoing.token? x)

def Process.tokens (p : Process S) : List (Side × Token S) :=
  p.calls.filterMap (Call.token? x e) ++ p.relay.tokens x

variable (c : Codec S) (L : Side → Endpoint)

def wireToken? (w : ProtocolPacket × ℕ) : Option (Side × Token S) :=
  match w.1.deserialize c with
  | some (.ok item) => item.token? x w.2
  | _ => none

/-- The tokens that are with a side, its wire and its log. -/
def Exchange.part (s : Exchange S) : List (Side × Token S) :=
  (s.link.wire x).filterMap (wireToken? x c) ++ (s.link.procs x).tokens x (L x)
    ++ (s.served x).map fun r => (x.other, .served r)

def Exchange.tokens (s : Exchange S) : List (Side × Token S) :=
  s.part .left c L ++ s.part .right c L

theorem Exchange.countP_tokens (s : Exchange S) (q : Side × Token S → Bool) :
    (s.tokens c L).countP q = (s.part x c L).countP q + (s.part x.other c L).countP q := by
  rw [tokens, List.countP_append]
  cases x
  · rfl
  · exact Nat.add_comm _ _

end Tokens

section Items

variable {S : Type} {x : Side} {e : Endpoint}

/-- The item is neither a request nor a response. -/
def ProtocolItem.Aside (item : ProtocolItem S) : Prop :=
  ∀ x origin, item.arrived.token? x origin = none

theorem ProtocolItem.aside_action (a : Action) : (action a : ProtocolItem S).Aside := by
  intro x origin
  cases a <;> rfl

theorem ProtocolItem.token?_response (mid : UInt64) (res : Except (Error Unit GenericError) S)
    (origin : ℕ) : (ProtocolItem.arrived (.event (.response mid res))).token? x origin
      = some (x.other, .answered (Slab.index mid) (relayed res)) := by
  rcases res with err | msg <;> rfl

namespace TcpRelay

variable {r r' : TcpRelay S}

theorem tokens_sendItem {item : ProtocolItem S} {origin : ℕ}
    (h : r.sendItem (some item) origin = some r') :
    r'.tokens x = r.tokens x ++ (item.arrived.token? x origin).toList := by
  rw [sendItem_eq h, tokens, List.filterMap_append, tokens]
  rw [List.filterMap_cons, List.filterMap_nil, Outgoing.token?, Option.bind_some]
  rcases item.arrived.token? x origin with _ | t <;> rfl

theorem tokens_sendItem_aside {item : ProtocolItem S} {origin : ℕ} (hi : item.Aside)
    (h : r.sendItem (some item) origin = some r') : r'.tokens x = r.tokens x := by
  rw [tokens_sendItem h, hi]
  exact List.append_nil _

theorem tokens_sendAction {a : Action} (h : r.sendAction a = some r') :
    r'.tokens x = r.tokens x := by
  cases a with
  | init id =>
    cases h
    split_ifs <;> rfl
  | close =>
    obtain ⟨q, hq, rfl⟩ := Option.map_eq_some_iff.1 h
    rw [sendItem_eq hq, tokens, List.filterMap_append]
    exact List.append_nil _
  | _ => exact tokens_sendItem_aside (ProtocolItem.aside_action _) h

end TcpRelay

namespace Process

variable {p p' q : Process S}

/-- What leaves the requests of a process alone. -/
structure Idles (p p' : Process S) : Prop where
  calls : p'.calls = p.calls
  tokens : ∀ x, p'.relay.tokens x = p.relay.tokens x
  waiters : p'.wrapper.waiters = p.wrapper.waiters
  chans : p'.chans = p.chans

theorem Idles.refl (p : Process S) : Idles p p := ⟨rfl, fun _ => rfl, rfl, rfl⟩

theorem Idles.of_eq (hc : p'.calls = p.calls) (hr : p'.relay = p.relay)
    (hw : p'.wrapper = p.wrapper) (hch : p'.chans = p.chans) : Idles p p' :=
  ⟨hc, fun x => by rw [hr], by rw [hw], hch⟩

theorem Idles.trans (h : Idles p q) (h' : Idles q p') : Idles p p' :=
  ⟨h'.calls.trans h.calls, fun x => (h'.tokens x).trans (h.tokens x), h'.waiters.trans h.waiters,
    h'.chans.trans h.chans⟩

theorem Idles.tokens_eq (h : Idles p p') : p'.tokens x e = p.tokens x e := by
  rw [Process.tokens, h.calls, h.tokens, Process.tokens]

theorem idles_setNotify (p : Process S) (n : Notify Sleeper) (round : Round) :
    Idles p (p.setNotify n round) := by
  cases round <;> exact .of_eq rfl rfl rfl rfl

theorem idles_wake (p : Process S) (ws : List Sleeper) : Idles p (p.wake ws) := by
  unfold wake
  split_ifs <;> exact .of_eq rfl rfl rfl rfl

theorem idles_ring (p : Process S) (w : RelayWake) : Idles p (p.ring w) := by
  unfold ring
  split
  · refine .trans ?_ (idles_wake _ _)
    exact .of_eq rfl rfl rfl rfl
  · refine .trans ?_ (idles_wake _ _)
    exact .of_eq rfl rfl rfl rfl
  · exact .of_eq rfl rfl rfl rfl

theorem idles_answer {item : ProtocolItem S} (hi : item.Aside) : Idles p (p.answer item) := by
  unfold answer
  split
  · rename_i relay h
    exact ⟨rfl, fun x => TcpRelay.tokens_sendItem_aside hi h, rfl, rfl⟩
  · exact .of_eq rfl rfl rfl rfl

theorem idles_finishRound (round : Round) : Idles p (p.finishRound e round) := by
  unfold finishRound
  split
  · split_ifs
    · exact .of_eq rfl rfl rfl rfl
    · exact idles_answer fun _ _ => rfl
  · exact idles_answer fun _ _ => rfl

theorem idles_sendAction {a : Action} {relay : TcpRelay S} (h : p.relay.sendAction a = some relay) :
    Idles p { p with relay } :=
  ⟨rfl, fun _ => TcpRelay.tokens_sendAction h, rfl, rfl⟩

theorem idles_visitRelay (round : Round) (r : Receiver) (todo : List Receiver) :
    Idles p (p.visitRelay round r todo) := by
  unfold visitRelay
  split_ifs
  · split
    · rename_i relay h
      refine .trans ?_ (idles_setNotify _ _ _)
      exact ⟨rfl, fun _ => TcpRelay.tokens_sendAction h, rfl, rfl⟩
    · exact .of_eq rfl rfl rfl rfl
  · exact .of_eq rfl rfl rfl rfl

theorem idles_visit {need : Bool} (h : p.visit e need = some p') : Idles p p' := by
  unfold visit at h
  split at h
  · cases h
    exact idles_finishRound _
  · cases h
    split_ifs
    · exact idles_visitRelay _ _ _
    · exact .of_eq rfl rfl rfl rfl
    · exact .of_eq rfl rfl rfl rfl
  · cases h

theorem idles_callerAwait (round : Round) : Idles p (p.callerAwait round) := by
  unfold callerAwait
  split
  · rename_i relay h
    exact (idles_sendAction h).trans (idles_setNotify _ _ _)
  · exact .of_eq rfl rfl rfl rfl

/-- The event loop's turn, in what concerns requests. -/
theorem handle_turn [Message S] (p : Process S) (ev : Event S GenericError) :
    Idles { p with
      wrapper := (p.wrapper.handleEvent p.chans ev).wrapper
      chans := (p.wrapper.handleEvent p.chans ev).chans } (p.handle ev) := by
  obtain ⟨q, hq, heq⟩ := handle_rings (P := Idles { p with
    wrapper := (p.wrapper.handleEvent p.chans ev).wrapper
    chans := (p.wrapper.handleEvent p.chans ev).chans }) p ev (.refl _)
      fun q w hq => hq.trans (idles_ring q w)
  rw [heq]
  split_ifs
  · exact hq
  · exact hq.trans (.of_eq rfl rfl rfl rfl)

theorem idles_handle [Message S] {ev : Event S GenericError}
    (h : ∀ mid res, ev ≠ .response mid res) : Idles p (p.handle ev) := by
  refine .trans ?_ (handle_turn p ev)
  rcases ev with ⟨mid, res⟩ | _ | _ | _ | _ | _ | _ | _ | _ | _
  · exact absurd rfl (h mid res)
  all_goals exact ⟨rfl, fun _ => rfl, rfl, rfl⟩

end Process

end Items

section Calls

variable {S : Type} {x : Side} {e : Endpoint} {d d' : Call S}

section Pool

variable {i : ℕ}

/-- The requests of calls, one of which is another now. -/
theorem handover_set_call {calls : List (Call S)} {t t' : Option (Side × Token S)}
    (hi : calls[i]? = some d) (ht : d.token? x e = t) (ht' : d'.token? x e = t') :
    Handover t'.toList t.toList (calls.filterMap (Call.token? x e))
      ((calls.set i d').filterMap (Call.token? x e)) := by
  subst ht ht'
  exact .of_perm (List.perm_append_comm.trans
    ((Pool.perm_filterMap_set (Call.token? x e) d' hi).trans List.perm_append_comm))

/-- A call that does not ask again gives up its token or keeps it. -/
theorem handover_next {calls : List (Call S)} (hi : calls[i]? = some d)
    (h : d'.token? x e = d.token? x e ∨ d'.token? x e = none) :
    Handover [] [] (calls.filterMap (Call.token? x e))
      ((calls.set i d').filterMap (Call.token? x e)) := by
  rcases h with h | h
  · have hset := handover_set_call hi rfl h
    intro q
    have := hset q
    simp only [List.countP_nil]
    omega
  · exact (handover_set_call hi rfl h).forget

theorem handover_erase_call {calls : List (Call S)} (hi : calls[i]? = some d) :
    Handover [] (d.token? x e).toList (calls.filterMap (Call.token? x e))
      ((calls.eraseIdx i).filterMap (Call.token? x e)) := by
  obtain ⟨hlt, rfl⟩ := List.getElem?_eq_some_iff.1 hi
  have hperm := (List.getElem_cons_eraseIdx_perm hlt).filterMap (Call.token? x e)
  refine .of_perm ?_
  rw [List.filterMap_cons] at hperm
  rcases ht : calls[i].token? x e with _ | t
  · rw [ht] at hperm
    exact hperm
  · rw [ht] at hperm
    exact hperm

theorem handover_new_call (calls : List (Call S)) (d : Call S) : Handover (d.token? x e).toList []
    (calls.filterMap (Call.token? x e)) ((calls ++ [d]).filterMap (Call.token? x e)) := by
  rw [List.filterMap_append]
  have hd : [d].filterMap (Call.token? x e) = (d.token? x e).toList := by
    rw [List.filterMap_cons, List.filterMap_nil]
    rcases d.token? x e with _ | t <;> rfl
  rw [hd]
  exact .added _ _

end Pool

/-- A call that moves on to its next receivers. -/
theorem Call.token?_next {todo : Option (List Receiver)}
    (h : ({ d with todo } : Call S).pending e = true → d.pending e = true) :
    ({ d with todo } : Call S).token? x e = d.token? x e
      ∨ ({ d with todo } : Call S).token? x e = none := by
  by_cases hreq : d.kind.isReq = true
  · rcases hf : d.frame with _ | mid
    · by_cases hp : ({ d with todo } : Call S).pending e = true
      · rw [hf] at hp
        simp [token?, hreq, hf, hp, h (hf ▸ hp)]
      · rw [hf, Bool.not_eq_true] at hp
        simp [token?, hreq, hf, hp]
    · simp [token?, hreq, hf]
  · simp [token?, hreq]

variable [Message S]

/-- What its side knows of a call. -/
structure Call.Fits (e : Endpoint) (d : Call S) : Prop where
  served : d.frame ≠ none → d.kind.isReq = true →
    d.kind = .request (.except e.relayId) none none
  todo : ∀ l, d.todo = some l → (∀ r ∈ l, r ∈ d.kind.select e.bus (Message.typeTag d.msg))
    ∧ (l.map (·.id)).Nodup

structure Process.Fits (e : Endpoint) (p : Process S) : Prop where
  selfId : p.relay.started = true → p.relay.selfId = e.relayId
  calls : ∀ d ∈ p.calls, d.Fits e

/-- A request that comes to the relay is a user's, and has nobody else to ask. -/
theorem Call.Fits.token?_relay (h : d.Fits e) (hreq : d.kind.isReq = true) {r : Receiver}
    {todo : List Receiver} (hd : d.todo = some (r :: todo)) (hr : r.id = e.relayId) :
    d.token? x e = some (x, .asking d.origin d.msg)
      ∧ ({ d with todo := some todo } : Call S).token? x e = none := by
  obtain ⟨hmem, hnodup⟩ := h.todo _ hd
  have hframe : d.frame = none := by
    by_contra hf
    have hsel := hmem r List.mem_cons_self
    rw [h.served hf hreq] at hsel
    exact ne_relay_of_except hsel hr
  rw [List.map_cons, List.nodup_cons] at hnodup
  have hothers : todo.any (·.id == e.relayId) = false := by
    simp only [List.any_eq_false, beq_iff_eq]
    exact fun r' hr' hid => hnodup.1 (List.mem_map.2 ⟨r', hr', hid.trans hr.symm⟩)
  simp [token?, hreq, hframe, pending, hd, hr, hothers]

namespace Process

variable {p p' : Process S}

theorem fits_set_call (h : p.Fits e) {i : ℕ} (hd : d.Fits e) :
    Process.Fits e { p with calls := p.calls.set i d } where
  selfId := h.selfId
  calls d' hd' := by
    rcases List.mem_or_eq_of_mem_set hd' with hd' | rfl
    · exact h.calls d' hd'
    · exact hd

theorem fits_erase_call (h : p.Fits e) (i : ℕ) :
    Process.Fits e { p with calls := p.calls.eraseIdx i } where
  selfId := h.selfId
  calls d hd := h.calls d (List.mem_of_mem_eraseIdx hd)

theorem Fits.of_keeps (h : p.Fits e) (hk : Keeps e p p') : p'.Fits e where
  selfId := hk.1.selfId h.selfId
  calls := by
    rw [hk.2]
    exact h.calls

end Process

theorem Call.Fits.set_todo (h : d.Fits e) {l : List Receiver}
    (hl : ∀ r ∈ l, r ∈ d.kind.select e.bus (Message.typeTag d.msg)) (hn : (l.map (·.id)).Nodup) :
    ({ d with todo := some l } : Call S).Fits e where
  served := h.served
  todo l' hl' := by
    cases hl'
    exact ⟨hl, hn⟩

theorem Call.Fits.tail (h : d.Fits e) {r : Receiver} {l : List Receiver}
    (hd : d.todo = some (r :: l)) : ({ d with todo := some l } : Call S).Fits e := by
  obtain ⟨hmem, hn⟩ := h.todo _ hd
  rw [List.map_cons, List.nodup_cons] at hn
  exact h.set_todo (fun r' hr' => hmem r' (List.mem_cons_of_mem _ hr')) hn.2

end Calls

section Turns

variable {S : Type} [CloneMessage S] {x : Side} {e : Endpoint} {p p' : Process S}

theorem Process.fits_act (h : p.Fits e) {l : ProcLabel S} (hs : p.act e l = some p') :
    p'.Fits e := by
  cases Process.move hs with
  | @start i d todo hi hd htodo =>
    have hsound := h.calls d (List.mem_of_getElem? hi)
    refine fits_set_call h ?_
    rcases htodo with rfl | rfl
    · exact hsound.set_todo (by simp) List.nodup_nil
    · exact hsound.set_todo (fun _ => id) (nodup_select _ _ _)
  | panic => exact fits_erase_call h _
  | @put i key mid d r todo wrapper mid' hi hd hc hr =>
    have hset := fits_set_call (i := i) h ((h.calls d (List.mem_of_getElem? hi)).tail hd)
    refine ⟨?_, hset.calls⟩
    rcases sendMsg_cases p.relay mid' { d with todo := some todo } with hm | ⟨-, hm⟩
    · rw [hm]
      exact h.selfId
    · rw [hm]
      exact h.selfId
  | pass hi hd => exact fits_set_call h ((h.calls _ (List.mem_of_getElem? hi)).tail hd)
  | @finish i res relay hr =>
    have hk : Keeps e { p with calls := p.calls.eraseIdx i }
        { p with calls := p.calls.eraseIdx i, relay } := ⟨hr, rfl⟩
    exact (fits_erase_call h i).of_keeps hk
  | visit hv => exact h.of_keeps (keeps_visit hv)
  | resume => exact h.of_keeps (.refl p)
  | init hr => exact h.of_keeps ⟨hr, rfl⟩
  | closeRelay hr => exact h.of_keeps ⟨hr, rfl⟩
  | halt => exact h.of_keeps ⟨TcpRelay.keeps_halt p.relay, rfl⟩
  | @callerAwait round relay n hr hn =>
    have hk : Keeps e p { p with relay } := ⟨hr, rfl⟩
    exact (h.of_keeps hk).of_keeps (keeps_setNotify _ n round)
  | callerPanic => exact h
  | callerCancel => exact h.of_keeps (keeps_setNotify p _ _)
  | closeBus => exact h.of_keeps (.refl p)
  | exit => exact h.of_keeps (.refl p)

/-- What a step of a process does to the requests. -/
inductive Process.Turn (x : Side) (e : Endpoint) (p : Process S) (l : ProcLabel S) :
    Process S → Prop
  | idle {p' : Process S} (hand : Handover [] [] (p.tokens x e) (p'.tokens x e))
      (waiters : p'.wrapper.waiters = p.wrapper.waiters) (chans : p'.chans = p.chans)
      (served : p.served? (.act l) = none) : Turn x e p l p'
  | ask {p' : Process S} {key : Slab.Key} {origin : ℕ} {msg : S} {new : List (Side × Token S)}
      (hnew : new = [] ∨ new = [(x, .sent key origin msg)])
      (hand : Handover new [(x, .asking origin msg)] (p.tokens x e) (p'.tokens x e))
      (waiters : p.wrapper.waiters.insert key origin = some p'.wrapper.waiters)
      (chans : p'.chans = p.chans) (served : p.served? (.act l) = none) : Turn x e p l p'
  | serve {p' : Process S} {key : Slab.Key} {r : ServedRequest S} {new : List (Side × Token S)}
      (hnew : new = [] ∨ new = [(x.other, .answered key (relayed r.res))])
      (hand : Handover new [(x.other, .serving key r.origin r.msg)] (p.tokens x e) (p'.tokens x e))
      (waiters : p'.wrapper.waiters = p.wrapper.waiters) (chans : p'.chans = p.chans)
      (served : p.served? (.act l) = some r) : Turn x e p l p'

namespace Process

omit [CloneMessage S] in
theorem Idles.turn (h : Idles p p') {l : ProcLabel S} (hs : p.served? (.act l) = none) :
    Turn x e p l p' :=
  .idle (h.tokens_eq ▸ .refl _) h.waiters h.chans hs

/-- A request on its way has the key of its waiter; one that is refused is gone. -/
theorem tokens_sendMsg_request (r : TcpRelay S) (key : Slab.Key) (d : Call S)
    (hreq : d.kind.isReq = true) : ∃ new, (new = [] ∨ new = [(x, .sent key d.origin d.msg)])
      ∧ (r.sendMsg (requestMid key) d).tokens x = r.tokens x ++ new := by
  rcases sendMsg_cases r (requestMid key) d with hm | ⟨-, hm⟩
  · exact ⟨[], .inl rfl, by rw [hm, List.append_nil]⟩
  · refine ⟨_, .inr rfl, ?_⟩
    rw [hm, TcpRelay.tokens, List.filterMap_append, TcpRelay.tokens]
    simp [Outgoing.token?, ProtocolItem.arrived, ProtocolItem.token?, hreq]

theorem tokens_sendMsg_plain (r : TcpRelay S) (mid : UInt64) (d : Call S)
    (hreq : d.kind.isReq = false) : (r.sendMsg mid d).tokens x = r.tokens x := by
  rcases sendMsg_cases r mid d with hm | ⟨-, hm⟩
  · rw [hm]
  · rw [hm, TcpRelay.tokens, List.filterMap_append, TcpRelay.tokens]
    simp [Outgoing.token?, ProtocolItem.arrived, ProtocolItem.token?, hreq]

theorem turn_deliver (h : p.Fits e) {i : ℕ} {key : Slab.Key} {mid : UInt64}
    (hs : p.deliver e i key mid = some p') : Turn x e p (.deliver i key mid) p' := by
  unfold deliver at hs
  split at hs
  · rename_i origin kind msg frame r todo hi
    dsimp only at hs
    have hnext : Handover [] [] (p.calls.filterMap (Call.token? x e))
        ((p.calls.set i ⟨origin, kind, msg, frame, some todo⟩).filterMap (Call.token? x e)) :=
      handover_next hi (Call.token?_next (d := ⟨origin, kind, msg, frame, some (r :: todo)⟩)
        (pending_tail rfl))
    by_cases hc : (kind.clones && !CloneMessage.tryClone msg || kind.withError && r.id == e.relayId)
        = true
    · rw [if_pos hc] at hs
      cases hs
      exact .idle ((handover_erase_call hi).forget.append (.refl _)) rfl rfl rfl
    · rw [if_neg hc] at hs
      by_cases hr : r.id = e.relayId
      · rw [if_pos hr] at hs
        obtain ⟨q, hq, hs⟩ := Option.bind_eq_some_iff.1 hs
        rw [Option.ite_none_right_eq_some] at hs
        obtain ⟨-, hs⟩ := hs
        unfold listen at hq
        by_cases hreq : kind.isReq = true
        · rw [if_pos hreq] at hq
          obtain ⟨waiters, hins, rfl⟩ := Option.map_eq_some_iff.1 hq
          cases hs
          obtain ⟨htoken, hdone⟩ := (h.calls _ (List.mem_of_getElem? hi)).token?_relay (x := x)
            hreq rfl hr
          obtain ⟨new, hnew, htokens⟩ := tokens_sendMsg_request (x := x) p.relay key
            ⟨origin, kind, msg, frame, some todo⟩ hreq
          have hrelay : Handover new [] (p.relay.tokens x) ((p.relay.sendMsg
              (if kind.isReq then requestMid key else mid)
              ⟨origin, kind, msg, frame, some todo⟩).tokens x) := by
            rw [if_pos hreq, htokens]
            exact .added _ _
          exact .ask hnew ((handover_set_call hi htoken hdone).append hrelay) hins rfl rfl
        · rw [if_neg hreq] at hq
          cases hq
          cases hs
          have hrelay : Handover [] [] (p.relay.tokens x) ((p.relay.sendMsg
              (if kind.isReq then requestMid key else mid)
              ⟨origin, kind, msg, frame, some todo⟩).tokens x) := by
            rw [if_neg hreq, tokens_sendMsg_plain _ _ _ (Bool.not_eq_true _ ▸ hreq)]
            exact .refl _
          exact .idle (hnext.append hrelay) rfl rfl rfl
      · rw [if_neg hr] at hs
        cases hs
        exact .idle (hnext.append (.refl _)) rfl rfl rfl
  · cases hs

omit [CloneMessage S] in
/-- The answer to a call goes on the item channel, unless there is none or nobody takes it. -/
theorem tokens_answered (r : TcpRelay S) (item? : Option (ProtocolItem S)) :
    ∃ new, (new = [] ∨ ∃ item, item? = some item ∧ new = (item.arrived.token? x 0).toList)
      ∧ ((item?.bind fun item => r.sendItem (some item) 0).getD r).tokens x
        = r.tokens x ++ new := by
  rcases item? with _ | item
  · exact ⟨[], .inl rfl, (List.append_nil _).symm⟩
  · rcases h : r.sendItem (some item) 0 with _ | r'
    · refine ⟨[], .inl rfl, ?_⟩
      rw [Option.bind_some, h, List.append_nil]
      rfl
    · refine ⟨_, .inr ⟨item, rfl, rfl⟩, ?_⟩
      rw [Option.bind_some, h]
      exact TcpRelay.tokens_sendItem h

theorem token?_answerItem {kind : CallKind} {msg : S} {res : Except (Error Unit GenericError) S}
    {mid : UInt64} {item : ProtocolItem S} (h : answerItem kind msg res mid = some item) :
    item.arrived.token? x 0
      = if kind.isReq then some (x.other, .answered (Slab.index mid) (relayed res)) else none := by
  unfold answerItem at h
  split_ifs at h with hreq
  · rw [if_pos hreq]
    rcases res with err | resp
    · cases h
      exact ProtocolItem.token?_response _ _ _
    · dsimp only at h
      split_ifs at h
      cases h
      exact ProtocolItem.token?_response _ _ _
  · rw [if_neg hreq]
    cases h
    rfl

/-- The end of a call gives its token up, one that serves a request for the answer to it. -/
theorem turn_finish {i : ℕ} {res : Except (Error Unit GenericError) S}
    (hs : p.finish i res = some p') : Turn x e p (.finish i res) p' := by
  unfold finish at hs
  split at hs
  · rename_i origin kind msg frame hi
    cases hs
    have herase := handover_erase_call (x := x) (e := e) hi
    obtain ⟨new, hnew, htokens⟩ := tokens_answered (x := x) p.relay
      (frame.bind (answerItem kind msg res))
    have hrelay : Handover new [] (p.relay.tokens x) (((frame.bind (answerItem kind msg res)).bind
        fun item => p.relay.sendItem (some item) 0).getD p.relay |>.tokens x) := by
      rw [htokens]
      exact .added _ _
    have hhand := herase.append hrelay
    by_cases hserves : kind.isReq = true ∧ frame.isSome = true
    · obtain ⟨hreq, hframe⟩ := hserves
      obtain ⟨mid, rfl⟩ := Option.isSome_iff_exists.1 hframe
      have htoken : (⟨origin, kind, msg, some mid, some []⟩ : Call S).token? x e
          = some (x.other, .serving (Slab.index mid) origin msg) := by
        simp [Call.token?, hreq]
      rw [htoken] at hhand
      have hanswer : new = []
          ∨ new = [(x.other, .answered (Slab.index mid) (relayed res))] := by
        refine hnew.imp_right ?_
        rintro ⟨item, hitem, rfl⟩
        rw [token?_answerItem hitem, if_pos hreq]
        rfl
      have hserved : p.served? (.act (.finish i res)) = some ⟨origin, msg, res⟩ := by
        simp [served?, hi, hreq]
      exact .serve (r := ⟨origin, msg, res⟩) hanswer hhand rfl rfl hserved
    · have hserved : p.served? (.act (.finish i res)) = none := by
        rcases frame with _ | mid
        · simp [served?, hi]
        · simp only [Option.isSome_some, and_true] at hserves
          simp [served?, hi, hserves]
      have hnone : new = [] := by
        rcases hnew with rfl | ⟨item, hitem, rfl⟩
        · rfl
        · obtain ⟨mid, rfl, hitem⟩ := Option.bind_eq_some_iff.1 hitem
          simp only [Option.isSome_some, and_true] at hserves
          rw [token?_answerItem hitem, if_neg hserves]
          rfl
      rw [hnone] at hhand
      exact .idle hhand.forget rfl rfl hserved
  · cases hs

theorem turn (h : p.Fits e) {l : ProcLabel S} (hs : p.act e l = some p') : Turn x e p l p' := by
  rcases l with _ | i | ⟨i, key, mid⟩ | ⟨i, res⟩ | need | _ | round | round | _ | _ | _ | _
  · simp only [act, Option.map_eq_some_iff] at hs
    obtain ⟨relay, hr, rfl⟩ := hs
    exact (idles_sendAction hr).turn rfl
  · change p.start e i = some p' at hs
    unfold start at hs
    split at hs
    · rename_i origin kind msg frame hi
      cases hs
      refine .idle (.append (handover_next hi ?_) (.refl _)) rfl rfl rfl
      refine Call.token?_next (d := ⟨origin, kind, msg, frame, none⟩) fun hp => ?_
      simp only [Call.pending, Bool.and_eq_true] at hp ⊢
      exact ⟨hp.1, trivial⟩
    · cases hs
  · exact turn_deliver h hs
  · exact turn_finish hs
  · exact (idles_visit hs).turn rfl
  · change p.resume e = some p' at hs
    unfold resume at hs
    split at hs
    · split_ifs at hs
      cases hs
      exact (idles_wake p _).turn rfl
    · cases hs
  · cases hs
    exact (idles_callerAwait round).turn rfl
  · cases hs
    exact (idles_setNotify p _ round).turn rfl
  · cases hs
    exact .idle (.refl _) rfl rfl rfl
  · simp only [act, Option.map_eq_some_iff] at hs
    obtain ⟨relay, hr, rfl⟩ := hs
    exact (idles_sendAction hr).turn rfl
  · simp only [act, Option.ite_none_right_eq_some] at hs
    obtain ⟨-, hs⟩ := hs
    cases hs
    exact .idle (.refl _) rfl rfl rfl
  · simp only [act, Option.ite_none_right_eq_some] at hs
    obtain ⟨-, hs⟩ := hs
    cases hs
    refine .idle (.of_sublist ?_) rfl rfl rfl
    exact (List.nil_sublist _).append_left _

/-- What a frame that a process reads does to the requests. -/
inductive Hears (x : Side) (e : Endpoint) (p p' : Process S) : Option (Side × Token S) → Prop
  | idle {t : Option (Side × Token S)} (hand : Handover [] [] (p.tokens x e) (p'.tokens x e))
      (waiters : p'.wrapper.waiters = p.wrapper.waiters) (chans : p'.chans = p.chans) :
      Hears x e p p' t
  | serve {key : Slab.Key} {origin : ℕ} {msg : S}
      (hand : Handover [(x.other, .serving key origin msg)] [] (p.tokens x e) (p'.tokens x e))
      (waiters : p'.wrapper.waiters = p.wrapper.waiters) (chans : p'.chans = p.chans) :
      Hears x e p p' (some (x.other, .sent key origin msg))
  | answer {key : Slab.Key} {res : Except (Error Unit GenericError) S}
      (hand : Handover [] [] (p.tokens x e) (p'.tokens x e))
      (waiters : ∀ k, p'.wrapper.waiters.slot k
        = if k = key then none else p.wrapper.waiters.slot k)
      (chans : ∀ o r, p'.chans o = .sent r →
        p.chans o = .sent r ∨ p.wrapper.waiters.slot key = some o ∧ r = res) :
      Hears x e p p' (some (x, .answered key res))

omit [CloneMessage S] in
theorem Idles.hears (h : Idles p p') (t : Option (Side × Token S)) : Hears x e p p' t :=
  .idle (h.tokens_eq ▸ .refl _) h.waiters h.chans

omit [CloneMessage S] in
/-- A response takes the waiter of its key, and gives it to the channel that waits there. -/
theorem answer_cases (w : RelayWrapper) (chans : RelayChannels S) (mid : UInt64)
    (res : Except (Error Unit GenericError) S) :
    (w.answer chans mid res).1.waiters = (w.waiters.take mid).2
      ∧ ∀ o r, (w.answer chans mid res).2 o = .sent r →
        chans o = .sent r ∨ w.waiters.slot (Slab.index mid) = some o ∧ r = res := by
  unfold RelayWrapper.answer
  rcases htake : w.waiters.take mid with ⟨_ | tx, waiters⟩
  · exact ⟨rfl, fun o r => .inl⟩
  · have hslot : w.waiters.slot (Slab.index mid) = some tx := congrArg Prod.fst htake
    dsimp only
    rcases hsend : (chans tx).send res with _ | ch
    · exact ⟨rfl, fun o r => .inl⟩
    · refine ⟨rfl, fun o r h => ?_⟩
      dsimp only at h
      rw [Function.update_apply] at h
      split_ifs at h with ho
      · obtain ⟨-, rfl⟩ := Oneshot.send_eq_some.1 hsend
        obtain rfl : res = r := by simpa using h
        exact .inr ⟨ho ▸ hslot, rfl⟩
      · exact .inl h

theorem handleEvent_response (w : RelayWrapper) (chans : RelayChannels S) (mid : UInt64)
    (res : Except (Error Unit GenericError) S) :
    (w.handleEvent chans (.response mid res)).wrapper.waiters
        = (w.answer chans mid res).1.waiters
      ∧ (w.handleEvent chans (.response mid res)).chans = (w.answer chans mid res).2 := by
  rcases res with err | msg <;> exact ⟨rfl, rfl⟩

theorem hears_response (p : Process S) (mid : UInt64) (res : Except (Error Unit GenericError) S) :
    Hears x e p (p.handle (.response mid res)) (some (x, .answered (Slab.index mid) res)) := by
  have hturn := handle_turn p (.response mid res)
  obtain ⟨hwaiters, hchans⟩ := handleEvent_response p.wrapper p.chans mid res
  obtain ⟨htake, hsent⟩ := answer_cases p.wrapper p.chans mid res
  refine .answer (hturn.tokens_eq ▸ .refl _) (fun k => ?_) fun o r h => hsent o r ?_
  · rw [hturn.waiters, hwaiters, htake, Slab.slot_take]
  · rw [← hchans]
    rw [hturn.chans] at h
    exact h

/-- What the stream makes of a frame of the other side. -/
theorem hears_read (c : Codec S) (h : p.Fits e) (hst : p.relay.started = true)
    (pkt : ProtocolPacket) (origin : ℕ) :
    (p.read c e pkt origin).Fits e
      ∧ Hears x e p (p.read c e pkt origin) (wireToken? x.other c (pkt, origin)) := by
  unfold read wireToken?
  rcases pkt.deserialize c with _ | err | item
  · refine ⟨h.of_keeps (.refl p), Idles.hears ?_ _⟩
    exact .of_eq rfl rfl rfl rfl
  · exact ⟨h, (Idles.refl p).hears _⟩
  · rcases item with _ | ev | a | ⟨mid, msg, req⟩
    · refine ⟨h.of_keeps (.refl p), Idles.hears ?_ _⟩
      exact .of_eq rfl rfl rfl rfl
    · refine ⟨h.of_keeps (keeps_handle p ev), ?_⟩
      by_cases hev : ∃ mid res, ev = .response mid res
      · obtain ⟨mid, res, rfl⟩ := hev
        have := hears_response (x := x) (e := e) p mid res
        simpa [ProtocolItem.token?] using this
      · exact (idles_handle fun mid res heq => hev ⟨mid, res, heq⟩).hears _
    · cases a with
      | close => exact ⟨h.of_keeps (keeps_answer (Outgoing.noPlain_event _ 0)),
          (idles_answer fun _ _ => rfl).hears _⟩
      | _ =>
        refine ⟨h.of_keeps (.refl p), Idles.hears ?_ _⟩
        exact .of_eq rfl rfl rfl rfl
    · have hhand := (handover_new_call (x := x) (e := e) p.calls
        (p.dispatch origin mid msg req)).append (.refl (p.relay.tokens x))
      refine ⟨⟨h.selfId, fun d hd => ?_⟩, ?_⟩
      · rcases List.mem_append.1 hd with hd | hd
        · exact h.calls d hd
        · obtain rfl := List.mem_singleton.1 hd
          refine ⟨fun _ hreq => ?_, by simp [dispatch]⟩
          cases req with
          | true =>
            show CallKind.request (.except p.relay.selfId) none none = _
            rw [h.selfId hst]
          | false => cases hreq
      · cases req with
        | true => exact .serve hhand rfl rfl
        | false => exact .idle hhand rfl rfl

end Process

end Turns

end MessageBus
