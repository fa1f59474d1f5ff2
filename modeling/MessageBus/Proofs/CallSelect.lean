import MessageBus.Proofs.Select
import MessageBus.TcpRelay

/-!
# Whom a call selects

A call selects receivers of its bus, each once (`nodup_select`). A plain one selects the relay only
where its table has an entry for the tag, a broadcast through `send_boxed` exactly where it has one
for plain messages, and a request that leaves the relay out never does.
-/

namespace MessageBus

def Endpoint.relay (e : Endpoint) : Receiver := ⟨e.relayId, .relay e.inTable⟩

theorem Endpoint.eq_relay (e : Endpoint) {r : Receiver} (hr : r ∈ e.receivers.receivers)
    (hid : r.id = e.relayId) : r = e.relay :=
  List.inj_on_of_nodup_map e.receivers.distinct hr e.registered hid

/-- A table has an entry for a tag, for plain messages or for requests. -/
def MessageTable.Lists (t : MessageTable) (msg : TypeTag) : Prop := ∃ ty ∈ t.iterTypes, ty.1 = msg

theorem mem_queries_iff {ty : TypeTagAcceptItem} {tt : TypeTag} :
    (tt, none, none) ∈ queries ty ↔ ty.1 = tt := by
  rcases ty with ⟨msg, _ | ⟨resp, err⟩⟩ <;> simp [queries, eq_comm]

variable {e : Endpoint} {kind : CallKind} {tt : TypeTag} {r : Receiver}

theorem mem_lookup_iff : r ∈ (e.bus.lookup (tt, none, none)).getD []
    ↔ r ∈ e.receivers.receivers ∧ ∃ ty ∈ r.iterTypes, ty.1 = tt := by
  rw [Endpoint.bus, mem_lookup]
  simp only [mem_queries_iff]

theorem nodup_lookup (q : LookupQuery) : (((e.bus.lookup q).getD []).map (·.id)).Nodup := by
  rw [Endpoint.bus, lookup_new]
  exact Index.nodup_build _ _

theorem mem_selectReq {options : SendOptions} {rid eid : Option TypeTag} :
    r ∈ e.bus.selectReceivers tt options rid eid true ↔ r ∈ e.receivers.receivers
      ∧ r.acceptReq tt rid eid = true ∧ options.passes r.id = true :=
  mem_selectReceivers e.receivers queries_of_acceptReq

theorem mem_selectMsg {options : SendOptions} :
    r ∈ e.bus.selectReceivers tt options none none false ↔ r ∈ e.receivers.receivers
      ∧ r.acceptMsg tt = true ∧ options.passes r.id = true :=
  mem_selectReceivers e.receivers queries_of_acceptMsg

theorem mem_sendBoxed {options : SendOptions} : r ∈ (CallKind.sendBoxed options).select e.bus tt
    ↔ r ∈ e.bus.selectReceivers tt options none none false := by
  unfold CallKind.select
  dsimp only
  split
  · rename_i h
    rw [h]
  · rename_i first iter h
    rw [h, List.mem_append, List.mem_singleton, List.mem_cons, or_comm]

/-- Every receiver a plain call selects has a type for its tag. -/
theorem lists_of_select (hk : kind.isReq = false) (h : r ∈ kind.select e.bus tt) :
    r ∈ e.receivers.receivers ∧ ∃ ty ∈ r.iterTypes, ty.1 = tt := by
  have hmsg : ∀ {options}, r ∈ e.bus.selectReceivers tt options none none false →
      r ∈ e.receivers.receivers ∧ ∃ ty ∈ r.iterTypes, ty.1 = tt := by
    intro options hr
    obtain ⟨hr, ha, -⟩ := mem_selectMsg.1 hr
    obtain ⟨ty, hty, hq⟩ := queries_of_acceptMsg ha
    exact ⟨hr, ty, hty, mem_queries_iff.1 hq⟩
  cases kind with
  | send => exact mem_lookup_iff.1 h
  | sendOne => exact mem_lookup_iff.1 (List.mem_of_mem_take h)
  | sendBoxed options => exact hmsg (mem_sendBoxed.1 h)
  | sendBoxedOne options => exact hmsg (List.mem_of_mem_take h)
  | request options rid eid => cases hk

theorem nodup_select (e : Endpoint) (kind : CallKind) (tt : TypeTag) :
    ((kind.select e.bus tt).map (·.id)).Nodup := by
  have hsel : ∀ options rid eid isReq,
      ((e.bus.selectReceivers tt options rid eid isReq).map (·.id)).Nodup :=
    fun options rid eid isReq => nodup_selectReceivers e.receivers tt options rid eid isReq
  cases kind with
  | send => exact nodup_lookup _
  | sendOne => exact (nodup_lookup _).sublist ((List.take_sublist _ _).map _)
  | sendBoxed options =>
    have := hsel options none none false
    unfold CallKind.select
    dsimp only
    split
    · exact List.nodup_nil
    · rename_i first iter h
      rw [h] at this
      exact ((List.perm_append_singleton first iter).map _).nodup_iff.2 this
  | sendBoxedOne options => exact (hsel _ _ _ _).sublist ((List.take_sublist _ _).map _)
  | request options rid eid => exact (hsel _ _ _ _).sublist ((List.take_sublist _ _).map _)

theorem acceptMessage_of_select {e : Endpoint} {r : Receiver} {tt : TypeTag}
    (h : r ∈ (CallKind.sendBoxed .broadcast).select e.bus tt) (hid : r.id = e.relayId) :
    e.inTable.acceptMessage tt = true := by
  obtain ⟨hr, ha, -⟩ := mem_selectMsg.1 (mem_sendBoxed.1 h)
  rw [e.eq_relay hr hid] at ha
  exact ha

theorem relay_mem_sendBoxed (h : e.inTable.acceptMessage tt = true) :
    e.relay ∈ (CallKind.sendBoxed .broadcast).select e.bus tt :=
  mem_sendBoxed.2 (mem_selectMsg.2 ⟨e.registered, h, rfl⟩)

theorem relay_mem_send (h : e.inTable.Lists tt) : e.relay ∈ CallKind.send.select e.bus tt :=
  mem_lookup_iff.2 ⟨e.registered, h⟩

theorem ne_relay_of_except {rid eid : Option TypeTag}
    (h : r ∈ (CallKind.request (.except e.relayId) rid eid).select e.bus tt) :
    r.id ≠ e.relayId := by
  obtain ⟨-, -, hp⟩ := mem_selectReq.1 (List.mem_of_mem_take h)
  intro hid
  simp [SendOptions.passes, hid] at hp

end MessageBus
