import MessageBus.Builder
import MessageBus.Proofs.Select
import Mathlib.Data.List.Perm.Basic

/-!
# A bus has what was subscribed for it

Every id of the sequence goes to one subscription, and every subscription is in one of the values
the threads own, or lost with a dropped one (`BuildState.Sound`). As long as the sequence has not
come round the ids in a value are distinct, so no set drops a receiver, and the value has just the
receivers and pollers of its subscriptions (`Faithful`).
-/

namespace MessageBus

open List (Perm)

section Sets

variable {s : ReceiverSet}

theorem insert_of_fresh {r : Receiver} (h : r.id ∉ s.receivers.map (·.id)) :
    (s.insert r).receivers = s.receivers ++ [r] :=
  if_neg h

theorem extend_of_nodup : ∀ {rs : List Receiver} {s : ReceiverSet},
    ((s.receivers ++ rs).map (·.id)).Nodup → (s.extend rs).receivers = s.receivers ++ rs
  | [], s, _ => (List.append_nil _).symm
  | r :: rs, s, h => by
    have hfresh : r.id ∉ s.receivers.map (·.id) := by
      rw [List.map_append, List.map_cons] at h
      intro hr
      exact List.disjoint_of_nodup_append h hr List.mem_cons_self
    have hinsert := insert_of_fresh hfresh
    have hrest : (((s.insert r).receivers ++ rs).map (·.id)).Nodup := by
      rw [hinsert, List.append_assoc]
      exact h
    calc ((s.insert r).extend rs).receivers = (s.insert r).receivers ++ rs :=
          extend_of_nodup hrest
      _ = s.receivers ++ r :: rs := by rw [hinsert, List.append_assoc, List.singleton_append]

end Sets

namespace Registration

def id (m : Registration) : UInt64 := m.receiver.id

/-- What polls the item takes it for what it is. -/
def Matched (m : Registration) : Prop :=
  ∀ S ut, m.source = some (S, ut) → S.locks = ut.mutex

end Registration

namespace Piece

/-- The receivers a value has, an entry's beside those of what it was made from. -/
def receivers : Piece → List Receiver
  | payload p => p.inner.receivers.receivers
  | entry e => e.payload.inner.receivers.receivers ++ e.receivers.receivers
  | bus b => b.bus.receivers.receivers

def pollers : Piece → List BusPollerCallback
  | payload p => p.inner.pollings
  | entry e => e.payload.inner.pollings ++ e.pollers
  | bus b => b.tasks

/-- What is in a value beside receivers and pollers goes with them. -/
def Formed : Piece → Prop
  | payload _ => True
  | entry e => e.item.mutex = (e.kind == .unsync)
  | bus b => b.bus = .new b.bus.receivers ∧ b.inits = b.bus.receivers.receivers.map (·.id)

end Piece

structure Faithful (p : Piece) (made : List Registration) : Prop where
  receivers : p.receivers.Perm (made.map (·.receiver))
  pollers : p.pollers.Perm (made.flatMap Registration.pollers)

namespace Faithful

variable {p : Piece} {made : List Registration}

theorem ids (h : Faithful p made) :
    (p.receivers.map (·.id)).Perm (made.map Registration.id) := by
  have := h.receivers.map (fun r : Receiver => r.id)
  rwa [List.map_map] at this

theorem nodup (h : Faithful p made) (hmade : (made.map Registration.id).Nodup) :
    (p.receivers.map (·.id)).Nodup :=
  h.ids.nodup_iff.2 hmade

/-- One more subscription. -/
theorem concat (h : Faithful p made) {p' : Piece} {m : Registration}
    (hr : p'.receivers = p.receivers ++ [m.receiver])
    (hp : p'.pollers = p.pollers ++ m.pollers) : Faithful p' (made ++ [m]) := by
  constructor
  · rw [hr, List.map_append]
    exact h.receivers.append_right _
  · rw [hp, List.flatMap_append, List.flatMap_singleton]
    exact h.pollers.append_right _

end Faithful

structure Holding.Sound (h : Holding) : Prop where
  faithful : (h.made.map Registration.id).Nodup → Faithful h.piece h.made
  matched : ∀ m ∈ h.made, m.named = true → m.Matched
  formed : h.piece.Formed

section Moves

variable {p : Payload} {e : RegisterEntry} {made made' : List Registration}

theorem inner_take (p : Payload) (rs : List Receiver) (ps : List BusPollerCallback) :
    (p.take rs ps).inner = ⟨p.inner.receivers.extend rs, p.inner.pollings ++ ps⟩ := by
  rcases p with m | b <;> rfl

theorem inner_registerRelay (p : Payload) (id : UInt64) (t : MessageTable) :
    (p.registerRelay id t).inner = p.inner.registerRelay id t := by
  rcases p with m | b <;> rfl

theorem inner_addModule (p : Payload) (m : Module) :
    (p.addModule m).inner = p.inner.addModule m := by
  rcases p with m' | b <;> rfl

theorem subscriber_locks {kind : EntryKind} {how : Subscribing} (h : how.isAny = false) :
    (how.subscriber kind).locks = (kind == .unsync) := by
  rcases how <;> rcases kind <;> first | rfl | cases h

/-- One more subscription of a fresh id, whose receiver and pollers go where the others are. -/
theorem Holding.Sound.concat {piece piece' : Piece} {m : Registration}
    (h : (Holding.mk piece made).Sound)
    (hr : m.id ∉ piece.receivers.map (·.id) → piece'.receivers = piece.receivers ++ [m.receiver])
    (hp : piece'.pollers = piece.pollers ++ m.pollers) (hm : m.named = true → m.Matched)
    (hf : piece'.Formed) : (Holding.mk piece' (made ++ [m])).Sound := by
  refine ⟨fun hn => ?_, ?_, hf⟩
  · rw [List.map_append] at hn
    have hold := h.faithful hn.of_append_left
    have hfresh : m.id ∉ piece.receivers.map (·.id) := fun hid =>
      List.disjoint_of_nodup_append hn (hold.ids.mem_iff.1 hid) (List.mem_singleton.2 rfl)
    exact hold.concat (hr hfresh) hp
  · rw [List.forall_mem_append, List.forall_mem_singleton]
    exact ⟨h.matched, hm⟩

theorem sound_new : (Holding.mk (.payload (.module .new)) []).Sound ∧
    (Holding.mk (.payload (.builder .new)) []).Sound :=
  ⟨⟨fun _ => ⟨.nil, .nil⟩, by simp, trivial⟩, ⟨fun _ => ⟨.nil, .nil⟩, by simp, trivial⟩⟩

theorem sound_register (h : (Holding.mk (.payload p) made).Sound) (kind : EntryKind) (item : ℕ) :
    (Holding.mk (.entry (p.register kind item)) made).Sound := by
  refine ⟨fun hn => ?_, h.matched, rfl⟩
  have hf := h.faithful hn
  have hr : (Piece.entry (p.register kind item)).receivers = (Piece.payload p).receivers :=
    List.append_nil _
  have hp : (Piece.entry (p.register kind item)).pollers = (Piece.payload p).pollers :=
    List.append_nil _
  exact ⟨hr ▸ hf.receivers, hp ▸ hf.pollers⟩

theorem sound_registerRelay (h : (Holding.mk (.payload p) made).Sound) (id : UInt64)
    (t : MessageTable) : (Holding.mk (.payload (p.registerRelay id t))
      (made ++ [⟨⟨id, .relay t⟩, none, true⟩])).Sound := by
  refine h.concat (fun hid => ?_) ?_ (fun _ S ut hs => nomatch hs) trivial
  · simp only [Piece.receivers, inner_registerRelay]
    exact insert_of_fresh hid
  · simp only [Piece.pollers, inner_registerRelay]
    rfl

theorem sound_subscribe (h : (Holding.mk (.entry e) made).Sound) (id : UInt64) (how : Subscribing)
    (m r err : TypeTag) :
    (Holding.mk (.entry (e.subscribe id (how.subscriber e.kind) m r err))
      (made ++ [⟨⟨id, .localTypes m r err⟩, some (how.subscriber e.kind, e.item),
        !how.isAny⟩])).Sound := by
  refine h.concat (fun hid => ?_) ?_ (fun hnamed => ?_) h.formed
  · have hid : id ∉ e.receivers.receivers.map (·.id) := by
      simp only [Piece.receivers, List.map_append] at hid
      exact fun he => hid (List.mem_append_right _ he)
    simp only [Piece.receivers, RegisterEntry.subscribe]
    rw [insert_of_fresh hid, List.append_assoc]
  · simp only [Piece.pollers, RegisterEntry.subscribe, Registration.pollers]
    rw [List.append_assoc, List.append_assoc]
    rfl
  · rintro S ut ⟨⟩
    have hany : how.isAny = false := by simpa using hnamed
    exact (subscriber_locks hany).trans h.formed.symm

theorem sound_done (h : (Holding.mk (.entry e) made).Sound) :
    (Holding.mk (.payload e.done) made).Sound := by
  refine ⟨fun hn => ?_, h.matched, trivial⟩
  have hf := h.faithful hn
  have hextend := extend_of_nodup (s := e.payload.inner.receivers) (hf.nodup hn)
  constructor
  · simp only [Piece.receivers, RegisterEntry.done, inner_take]
    rw [hextend]
    exact hf.receivers
  · simp only [Piece.pollers, RegisterEntry.done, inner_take]
    exact hf.pollers

theorem sound_addModule {m : Module} (h : (Holding.mk (.payload p) made).Sound)
    (h' : (Holding.mk (.payload (.module m)) made').Sound) :
    (Holding.mk (.payload (p.addModule m)) (made ++ made')).Sound := by
  refine ⟨fun hn => ?_, ?_, trivial⟩
  · have happend := hn
    rw [List.map_append] at happend
    have hf := h.faithful happend.of_append_left
    have hf' := h'.faithful happend.of_append_right
    have hperm : (p.inner.receivers.receivers ++ m.receivers.receivers).Perm
        ((made ++ made').map (·.receiver)) := by
      rw [List.map_append]
      exact hf.receivers.append hf'.receivers
    have hids : ((p.inner.receivers.receivers ++ m.receivers.receivers).map (·.id)).Nodup := by
      refine (hperm.map _).nodup_iff.2 ?_
      rwa [List.map_map]
    constructor
    · simp only [Piece.receivers, inner_addModule, Module.addModule]
      rwa [extend_of_nodup hids]
    · simp only [Piece.pollers, inner_addModule, Module.addModule, List.flatMap_append]
      exact hf.pollers.append hf'.pollers
  · rw [List.forall_mem_append]
    exact ⟨h.matched, h'.matched⟩

theorem sound_build {b : BusBuilder} (h : (Holding.mk (.payload (.builder b)) made).Sound) :
    (Holding.mk (.bus b.build) made).Sound :=
  ⟨fun hn => ⟨(h.faithful hn).receivers, (h.faithful hn).pollers⟩, h.matched, rfl, rfl⟩

end Moves

/-- The ids that the first `n` increments of the sequence give. -/
def givenIds (n : ℕ) : List UInt64 := (List.range n).map fun k => UInt64.ofNat (k + 1)

theorem givenIds_succ (n : ℕ) : givenIds (n + 1) = givenIds n ++ [UInt64.ofNat (n + 1)] := by
  simp [givenIds, List.range_succ]

theorem toNat_given {n k : ℕ} (hn : n < UInt64.size) (hk : k < n) :
    (UInt64.ofNat (k + 1)).toNat = k + 1 :=
  UInt64.toNat_ofNat_of_lt' (by omega)

theorem nodup_givenIds {n : ℕ} (hn : n < UInt64.size) : (givenIds n).Nodup := by
  refine (List.nodup_range).map_on fun i hi j hj hij => ?_
  have hi := toNat_given hn (List.mem_range.1 hi)
  have hj := toNat_given hn (List.mem_range.1 hj)
  rw [hij] at hi
  omega

theorem mem_givenIds {n : ℕ} (hn : n < UInt64.size) {id : UInt64} :
    id ∈ givenIds n ↔ 0 < id.toNat ∧ id.toNat ≤ n := by
  unfold givenIds
  rw [List.mem_map]
  constructor
  · rintro ⟨k, hk, rfl⟩
    have hk := List.mem_range.1 hk
    rw [toNat_given hn hk]
    omega
  · rintro ⟨hpos, hle⟩
    refine ⟨id.toNat - 1, List.mem_range.2 (by omega), ?_⟩
    rw [Nat.sub_add_cancel hpos]
    exact UInt64.ofNat_toNat

/-- Every id given so far is that of one subscription: in a value some thread owns, in what a step
has in its hands, or lost. -/
structure BuildState.Sound (s : BuildState) (inHand : List Registration) : Prop where
  ids : (s.holdings.flatMap (·.made.map Registration.id)
    ++ (inHand ++ s.lost).map Registration.id).Perm (givenIds s.given)
  seq : s.seq = UInt64.ofNat (s.given + 1)
  holdings : ∀ h ∈ s.holdings, h.Sound

namespace BuildState

variable {s s' : BuildState} {inHand made : List Registration}

theorem Sound.hold (hs : s.Sound (made ++ inHand)) {piece : Piece}
    (hp : (Holding.mk piece made).Sound) : (s.hold piece made).Sound inHand := by
  refine ⟨?_, hs.seq, fun h hh => ?_⟩
  · have := hs.ids
    simp only [List.map_append, List.append_assoc] at this
    simpa [BuildState.hold, List.flatMap_append] using this
  · rcases List.mem_append.1 hh with hh | hh
    · exact hs.holdings h hh
    · obtain rfl := List.mem_singleton.1 hh
      exact hp

theorem Sound.move (hs : s.Sound inHand) {i : ℕ} {h : Holding} (hi : s.move i = some (h, s')) :
    h.Sound ∧ s'.Sound (h.made ++ inHand) := by
  obtain ⟨x, hx, hxs⟩ := Option.map_eq_some_iff.1 hi
  obtain ⟨rfl, rfl⟩ := Prod.mk.inj hxs
  obtain ⟨hlt, rfl⟩ := List.getElem?_eq_some_iff.1 hx
  have hperm := List.getElem_cons_eraseIdx_perm hlt
  refine ⟨hs.holdings _ (List.getElem_mem hlt), ?_, hs.seq, fun h hh =>
    hs.holdings h (List.mem_of_mem_eraseIdx hh)⟩
  have hids := hperm.flatMap_right (·.made.map Registration.id)
  rw [List.flatMap_cons] at hids
  refine Perm.trans ?_ hs.ids
  simp only [List.map_append, List.append_assoc]
  rw [← List.append_assoc]
  exact (List.perm_append_comm.trans hids).append_right _

theorem Sound.fetchAdd (hs : s.Sound (made ++ inHand)) {m : Registration} (hm : m.id = s.seq) :
    s.fetchAdd.Sound ((made ++ [m]) ++ inHand) := by
  refine ⟨?_, ?_, hs.holdings⟩
  · simp only [BuildState.fetchAdd]
    rw [givenIds_succ, ← hs.seq, ← hm]
    refine Perm.trans ?_ (hs.ids.append_right _)
    have hlast := (List.perm_append_singleton m.id
      (inHand.map Registration.id ++ s.lost.map Registration.id)).symm
    simp only [List.map_append, List.map_singleton, List.append_assoc] at hlast ⊢
    exact (hlast.append_left _).append_left _
  · simp only [BuildState.fetchAdd, hs.seq]
    rw [UInt64.ofNat_add (s.given + 1)]
    rfl

/-- Two values in hand, in the other order. -/
theorem Sound.swap {made' : List Registration} (hs : s.Sound (made' ++ (made ++ inHand))) :
    s.Sound ((made ++ made') ++ inHand) := by
  refine ⟨Perm.trans ?_ hs.ids, hs.seq, hs.holdings⟩
  refine ((Perm.append_right _ ?_).map _).append_left _
  rw [← List.append_assoc]
  exact List.perm_append_comm.append_right _

theorem Sound.lose (hs : s.Sound (made ++ [])) :
    ({ s with lost := s.lost ++ made } : BuildState).Sound [] := by
  refine ⟨Perm.trans ?_ hs.ids, hs.seq, hs.holdings⟩
  rw [List.append_nil, List.nil_append]
  exact (List.perm_append_comm.map _).append_left _

theorem Sound.step (hs : s.Sound []) {l : BuildLabel} (h : s.step l = some s') : s'.Sound [] := by
  rcases l with _ | _ | ⟨p, kind, item⟩ | ⟨p, inner⟩ | ⟨e, how, m, r, err⟩ | e | ⟨p, module⟩ | p | i
    <;> simp only [BuildState.step] at h
  case newModule =>
    obtain rfl := Option.some.inj h
    exact hs.hold sound_new.1
  case newBuilder =>
    obtain rfl := Option.some.inj h
    exact hs.hold sound_new.2
  case register =>
    split at h
    · rename_i t hmove
      obtain rfl := Option.some.inj h
      obtain ⟨hp, hs⟩ := hs.move hmove
      exact hs.hold (sound_register hp kind item)
    · cases h
  case registerRelay =>
    split at h
    · rename_i t hmove
      obtain rfl := Option.some.inj h
      obtain ⟨hp, hs⟩ := hs.move hmove
      exact (hs.fetchAdd rfl).hold (sound_registerRelay hp t.seq inner)
    · cases h
  case subscribe =>
    split at h
    · rename_i t hmove
      obtain rfl := Option.some.inj h
      obtain ⟨he, hs⟩ := hs.move hmove
      exact (hs.fetchAdd rfl).hold (sound_subscribe he t.seq how m r err)
    · cases h
  case done =>
    split at h
    · rename_i hmove
      obtain rfl := Option.some.inj h
      obtain ⟨he, hs⟩ := hs.move hmove
      exact hs.hold (sound_done he)
    · cases h
  case addModule =>
    split at h
    · rename_i hp
      split at h
      · rename_i hm
        obtain rfl := Option.some.inj h
        obtain ⟨hp, hs⟩ := hs.move hp
        obtain ⟨hm, hs⟩ := hs.move hm
        exact (hs.swap).hold (sound_addModule hp hm)
      · cases h
    · cases h
  case build =>
    split at h
    · rename_i hmove
      obtain rfl := Option.some.inj h
      obtain ⟨hb, hs⟩ := hs.move hmove
      exact hs.hold (sound_build hb)
    · cases h
  case drop =>
    obtain ⟨⟨x, t⟩, hmove, rfl⟩ := Option.map_eq_some_iff.1 h
    exact (hs.move hmove).2.lose

theorem sound_of_reachable (h : buildRuns.Reachable s) : s.Sound [] :=
  Lts.invariant (J := fun s => s.Sound [])
    ⟨.nil, rfl, fun _ hh => absurd hh List.not_mem_nil⟩ (fun _ _ _ hs h => hs.step h) h

end BuildState

section Built

variable {b : Built} {made : List Registration}

theorem nodup_receivers (hn : (made.map Registration.id).Nodup) :
    (made.map (·.receiver)).Nodup := by
  refine List.Nodup.of_map (fun r : Receiver => r.id) ?_
  rwa [List.map_map]

/-- What the built index selects is what was subscribed, filtered. -/
theorem perm_select (h : (Holding.mk (.bus b) made).Sound)
    (hn : (made.map Registration.id).Nodup) {tid : TypeTag} {options : SendOptions}
    {rid eid : Option TypeTag} {isReq : Bool}
    (hq : ∀ r : Receiver, r.accept isReq tid rid eid = true →
      ∃ ty ∈ r.iterTypes, (tid, rid, eid) ∈ queries ty) :
    (b.bus.selectReceivers tid options rid eid isReq).Perm ((made.map (·.receiver)).filter fun r =>
      r.accept isReq tid rid eid && options.passes r.id) := by
  have hbus : b.bus = .new b.bus.receivers := h.formed.1
  have hmem := (h.faithful hn).receivers
  rw [hbus]
  refine (List.perm_ext_iff_of_nodup ?_ ((nodup_receivers hn).filter _)).2 fun r => ?_
  · exact (nodup_selectReceivers ..).of_map
  · rw [mem_selectReceivers _ (hq r), List.mem_filter, Bool.and_eq_true, ← hmem.mem_iff]
    rfl

end Built

/-- Any number of threads building modules and buses at once, before the sequence has come round:
each id it gave, none of them `0`, is in one value only, and once. A bus that is built has spawned
the pollers of all its subscriptions and initialised all their receivers, each once; its pollers
find the item they expect but where a caller of `subscribe` named a receiver for the other kind of
entry; and its index gives, each once, the subscribed receivers that take the message. -/
theorem builders_deliver {s : BuildState} (h : buildRuns.Reachable s)
    (hfew : s.given < UInt64.size) :
    (s.holdings.flatMap (·.made.map Registration.id) ++ s.lost.map Registration.id).Nodup
      ∧ (∀ id, id ∈ s.holdings.flatMap (·.made.map Registration.id) ++ s.lost.map Registration.id
        ↔ 0 < id.toNat ∧ id.toNat ≤ s.given)
      ∧ ∀ b made, ⟨.bus b, made⟩ ∈ s.holdings →
        b.tasks.Perm (made.flatMap Registration.pollers)
        ∧ b.inits.Perm (made.map Registration.id)
        ∧ (∀ t ∈ b.tasks, t.downcasts = false → ∃ m ∈ made, m.named = false ∧ t ∈ m.pollers)
        ∧ ∀ tid options,
          (∀ rid eid, (b.bus.selectReceivers tid options rid eid true).Perm
            ((made.map (·.receiver)).filter fun r =>
              r.acceptReq tid rid eid && options.passes r.id))
          ∧ (b.bus.selectReceivers tid options none none false).Perm
            ((made.map (·.receiver)).filter fun r => r.acceptMsg tid && options.passes r.id) := by
  have hs := BuildState.sound_of_reachable h
  have hids := hs.ids
  rw [List.nil_append] at hids
  have hnodup := hids.nodup_iff.2 (nodup_givenIds hfew)
  refine ⟨hnodup, fun id => hids.mem_iff.trans (mem_givenIds hfew), fun b made hb => ?_⟩
  have hsound := hs.holdings _ hb
  have hn : (made.map Registration.id).Nodup :=
    (List.nodup_flatMap.1 hnodup.of_append_left).1 _ hb
  have hf := hsound.faithful hn
  refine ⟨hf.pollers, ?_, fun t ht hfail => ?_, fun tid options =>
    ⟨fun rid eid => perm_select hsound hn fun _ => queries_of_acceptReq,
      perm_select hsound hn fun _ => queries_of_acceptMsg⟩⟩
  · have hinits : b.inits = b.bus.receivers.receivers.map (·.id) := hsound.formed.2
    rw [hinits]
    exact hf.ids
  · obtain ⟨m, hm, htm⟩ := List.mem_flatMap.1 (hf.pollers.mem_iff.1 ht)
    refine ⟨m, hm, ?_, htm⟩
    by_contra hnamed
    have hmatched := hsound.matched m hm (by simpa using hnamed)
    unfold Registration.pollers at htm
    split at htm
    · rename_i S ut hsource
      rcases List.mem_cons.1 htm with rfl | htm
      · simp [BusPollerCallback.downcasts, hmatched S ut hsource] at hfail
      · obtain rfl := List.mem_singleton.1 htm
        cases hfail
    · obtain rfl := List.mem_singleton.1 htm
      cases hfail

/-- Two services subscribed through a module, and a relay of the builder's own. -/
def twoServices : List BuildLabel :=
  [.newModule, .register 0 .unsync 7, .subscribe 0 .batchSync "app::Ping" "app::Pong" "app::E",
    .done 0, .newBuilder, .registerRelay 1 (.ofList [("app::Ping", none)]), .register 1 .sync 8,
    .subscribe 1 .async "app::Ping" "app::Pong" "app::E", .done 1, .addModule 1 0, .build 0]

theorem two_services_selected : ∃ s, buildRuns.run twoServices = some s
    ∧ ∃ b made, ⟨.bus b, made⟩ ∈ s.holdings
      ∧ ((b.bus.selectReceivers "app::Ping" .broadcast none none false).map (·.id)).Perm
        [2, 3, 1] := by
  have hrun : buildRuns.run twoServices = some _ := rfl
  refine ⟨_, hrun, _, _, List.mem_cons_self, ?_⟩
  have h := builders_deliver (Lts.reachable_of_run hrun) (by decide)
  exact ((h.2.2 _ _ List.mem_cons_self).2.2.2 "app::Ping" .broadcast).2.map _

end MessageBus
