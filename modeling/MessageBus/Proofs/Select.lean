import MessageBus.Bus

/-!
# The receiver index against a scan

The index holds a receiver under the queries its types answer (`mem_lookup`). What a receiver
accepts it has a type for (`queries_of_acceptReq`, `queries_of_acceptMsg`), so filtering the index
is filtering the whole set.
-/

namespace MessageBus

/-- The keys a type is entered under. -/
def queries : TypeTagAcceptItem → List LookupQuery
  | (msg, none) => [(msg, none, none)]
  | (msg, some (resp, err)) =>
    [(msg, none, none), (msg, some resp, none), (msg, none, some err), (msg, some resp, some err)]

section Index

/-- What `BusInner::new` enters for a receiver. -/
def Receiver.entries (r : Receiver) : List (LookupQuery × Receiver) :=
  r.iterTypes.flatMap fun ty => (queries ty).map fun q => (q, r)

theorem enterType_eq (lookup : Lookup) (recv : Receiver) (ty : TypeTagAcceptItem) :
    lookup.enterType recv ty
      = ((queries ty).map fun q => (q, recv)).foldl (Index.enter Receiver.id) lookup := by
  rcases ty with ⟨msg, _ | ⟨resp, err⟩⟩ <;> rfl

theorem lookup_new (s : ReceiverSet) :
    (BusInner.new s).lookup = Index.build Receiver.id (s.receivers.flatMap Receiver.entries) := by
  unfold BusInner.new Index.build
  simp only [enterType_eq, Receiver.entries, List.foldl_flatMap]

theorem mem_lookup (s : ReceiverSet) (q : LookupQuery) (r : Receiver) :
    r ∈ ((BusInner.new s).lookup q).getD []
      ↔ r ∈ s.receivers ∧ ∃ ty ∈ r.iterTypes, q ∈ queries ty := by
  have hmem : ∀ e ∈ s.receivers.flatMap Receiver.entries, e.2 ∈ s.receivers := by
    intro e he
    obtain ⟨r, hr, he⟩ := List.mem_flatMap.1 he
    obtain ⟨ty, -, he⟩ := List.mem_flatMap.1 he
    obtain ⟨q, -, rfl⟩ := List.mem_map.1 he
    exact hr
  rw [lookup_new, Index.mem_build]
  · simp only [List.mem_flatMap, Receiver.entries, List.mem_map, Prod.mk.injEq]
    constructor
    · rintro ⟨r', hr', ty, hty, q', hq', rfl, rfl⟩
      exact ⟨hr', ty, hty, hq'⟩
    · rintro ⟨hr, ty, hty, hq⟩
      exact ⟨r, hr, ty, hty, q, hq, rfl, rfl⟩
  · exact fun e he e' he' => List.inj_on_of_nodup_map s.distinct (hmem e he) (hmem e' he')

end Index

section Accept

theorem mem_iterTypes {t : MessageTable} {msg : TypeTag} {v : List (Option (TypeTag × TypeTag))}
    (h : t.table.lookup msg = some v) {x : Option (TypeTag × TypeTag)} (hx : x ∈ v) :
    (msg, x) ∈ t.iterTypes := by
  have := AList.mem_lookup_iff.1 h
  exact List.mem_flatMap.2 ⟨⟨msg, v⟩, this, List.mem_map.2 ⟨x, hx, rfl⟩⟩

theorem mem_queries {msg : TypeTag} {resp err : TypeTag} {rid eid : Option TypeTag}
    (hr : rid = none ∨ rid = some resp) (he : eid = none ∨ eid = some err) :
    (msg, rid, eid) ∈ queries (msg, some (resp, err)) := by
  rcases hr with rfl | rfl <;> rcases he with rfl | rfl <;> simp [queries]

/-- A receiver that takes a request has a type entered under its query. -/
theorem queries_of_acceptReq {r : Receiver} {tid : TypeTag} {rid eid : Option TypeTag}
    (h : r.acceptReq tid rid eid = true) : ∃ ty ∈ r.iterTypes, (tid, rid, eid) ∈ queries ty := by
  obtain ⟨id, kind⟩ := r
  rcases kind with ⟨m, resp, err⟩ | table
  · simp only [Receiver.acceptReq] at h
    split_ifs at h with hr he
    obtain rfl : tid = m := by simpa using h
    refine ⟨_, List.mem_singleton.2 rfl, mem_queries ?_ ?_⟩
    · rcases rid with _ | rid <;> simp at hr <;> simp [hr]
    · rcases eid with _ | eid <;> simp at he <;> simp [he]
  · simp only [Receiver.acceptReq, MessageTable.acceptRequest] at h
    split at h
    · rename_i v hv
      simp only [List.any_eq_true, List.mem_filterMap, Bool.and_eq_true] at h
      obtain ⟨⟨resp, err⟩, ⟨x, hx, rfl⟩, hr, he⟩ := h
      refine ⟨_, mem_iterTypes hv hx, mem_queries ?_ ?_⟩
      · rcases rid with _ | rid <;> simp at hr <;> simp [hr]
      · rcases eid with _ | eid <;> simp at he <;> simp [he]
    · cases h

/-- A receiver that takes a plain message has a type entered under its tag alone. -/
theorem queries_of_acceptMsg {r : Receiver} {tid : TypeTag} (h : r.acceptMsg tid = true) :
    ∃ ty ∈ r.iterTypes, (tid, none, none) ∈ queries ty := by
  obtain ⟨id, kind⟩ := r
  rcases kind with ⟨m, resp, err⟩ | table
  · obtain rfl : tid = m := by simpa [Receiver.acceptMsg] using h
    exact ⟨_, List.mem_singleton.2 rfl, mem_queries (.inl rfl) (.inl rfl)⟩
  · simp only [Receiver.acceptMsg, MessageTable.acceptMessage] at h
    split at h
    · rename_i v hv
      simp only [List.any_eq_true, Option.isNone_iff_eq_none] at h
      obtain ⟨x, hx, rfl⟩ := h
      exact ⟨_, mem_iterTypes hv hx, List.mem_singleton.2 rfl⟩
    · cases h

end Accept

theorem nodup_selectReceivers (s : ReceiverSet) (tid : TypeTag) (options : SendOptions)
    (rid eid : Option TypeTag) (isReq : Bool) :
    (((BusInner.new s).selectReceivers tid options rid eid isReq).map (·.id)).Nodup := by
  have h : ((((BusInner.new s).lookup (tid, rid, eid)).getD []).map (·.id)).Nodup := by
    rw [lookup_new]
    exact Index.nodup_build _ _
  exact h.sublist ((List.filter_sublist.trans List.filter_sublist).map _)

theorem mem_selectReceivers (s : ReceiverSet) {tid : TypeTag} {options : SendOptions}
    {rid eid : Option TypeTag} {isReq : Bool} {r : Receiver}
    (h : r.accept isReq tid rid eid = true → ∃ ty ∈ r.iterTypes, (tid, rid, eid) ∈ queries ty) :
    r ∈ (BusInner.new s).selectReceivers tid options rid eid isReq
      ↔ r ∈ s.receivers ∧ r.accept isReq tid rid eid = true ∧ options.passes r.id = true := by
  unfold BusInner.selectReceivers
  rw [List.mem_filter, List.mem_filter, mem_lookup]
  constructor
  · rintro ⟨⟨⟨hr, -⟩, ha⟩, ho⟩
    exact ⟨hr, ha, ho⟩
  · rintro ⟨hr, ha, ho⟩
    exact ⟨⟨⟨hr, h ha⟩, ha⟩, ho⟩

/-- For a request, and for a plain message without response and error tags, the index gives, each
once, the receivers of the set that accept it and pass the option. -/
theorem selectReceivers_eq_scan (s : ReceiverSet) (tid : TypeTag) (options : SendOptions) :
    (∀ rid eid, (((BusInner.new s).selectReceivers tid options rid eid true).map (·.id)).Nodup
      ∧ ∀ r, r ∈ (BusInner.new s).selectReceivers tid options rid eid true
        ↔ r ∈ s.receivers ∧ r.acceptReq tid rid eid = true ∧ options.passes r.id = true)
    ∧ (((BusInner.new s).selectReceivers tid options none none false).map (·.id)).Nodup
      ∧ ∀ r, r ∈ (BusInner.new s).selectReceivers tid options none none false
        ↔ r ∈ s.receivers ∧ r.acceptMsg tid = true ∧ options.passes r.id = true :=
  ⟨fun rid eid => ⟨nodup_selectReceivers s tid options rid eid true,
      fun _ => mem_selectReceivers s queries_of_acceptReq⟩,
    nodup_selectReceivers s tid options none none false,
    fun _ => mem_selectReceivers s queries_of_acceptMsg⟩

end MessageBus
