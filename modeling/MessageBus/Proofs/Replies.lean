import MessageBus.Proofs.Serving

/-!
# Every `Send` frame has one reply

A frame is answered once if its body decodes, its message can be cloned as often as it has
receivers, what comes back can be put in a `Response`, and the item channel still has its receiving
half by then. Each of these steps loses the reply where it fails.
-/

namespace MessageBus

section Replies

variable {S : Type} [CloneMessage S] {c : Codec S} {e : Endpoint}

/-- The reply to a `Send` frame. -/
def ProtocolItem.Answers (pkt : ProtocolPacket) : ProtocolItem S → Prop
  | .event (.response mid _) =>
    pkt.header.flags.contains .argument = true ∧ mid = pkt.header.argument
  | .event (.batchComplete tt n) =>
    pkt.header.flags.contains .argument = false ∧ pkt.typeTag? = some tt ∧ n = 1
  | _ => False

/-- The loaders give messages of the type they are registered for. -/
def Codec.Typed (c : Codec S) : Prop :=
  ∀ k tt data msg, c.registered tt = true → c.decode k tt data = .ok msg →
    Message.typeTag msg = tt

/-- The task serves the frame. -/
structure Job.Serves (j : Job S) (pkt : ProtocolPacket) : Prop where
  req : j.kind.isReq = pkt.header.flags.contains .argument
  mid : j.mid = pkt.header.argument
  tag : pkt.typeTag? = some (Message.typeTag j.msg)
  plain : j.kind.withError = false

theorem Job.Serves.answers {j : Job S} {pkt : ProtocolPacket} (h : j.Serves pkt)
    {item : ProtocolItem S} (hi : j.AnsweredBy item) : item.Answers pkt := by
  unfold Job.AnsweredBy at hi
  split at hi
  · exact ⟨h.req ▸ hi.1, hi.2.trans h.mid⟩
  · obtain ⟨hreq, rfl, hn⟩ := hi
    exact ⟨h.req ▸ hreq, h.tag, hn⟩
  · exact hi.elim

namespace Serving

variable {s s' : Serving S}

/-- What the task of the `i`-th frame has put on the item channel. -/
def putFor (s : Serving S) (i : ℕ) : List (ProtocolItem S) :=
  (s.put.filter fun x => x.1 == some i).map (·.2)

/-- The task of the `i`-th frame has not ended. -/
def UnderWay (s : Serving S) (i : ℕ) : Prop := ∃ j ∈ s.proc.jobs, j.origin = i

/-- The one reply to each frame whose handling has ended is there, and no other. -/
structure RepliedOnce (s : Serving S) : Prop where
  once : ∀ i pkt, s.frames[i]? = some pkt → ¬ s.UnderWay i →
    ∃ item, s.putFor i = [item] ∧ item.Answers pkt
  others : ∀ item, (none, item) ∈ s.put → item.isReply = false

/-- The step loses no reply: a `Send` frame it reads carries a message, a plain message it goes on
sending can be cloned, and a task that ends has something to put on a channel that still has its
receiving half. -/
def Replies (c : Codec S) (s : Serving S) : ServingLabel S → Prop
  | .read pkt => pkt.header.kind = .send → ∃ msg, pkt.Carries c msg
  | .act (.deliver i _ _) => ∀ d, s.proc.calls[i]? = some d → d.frame.isSome = true →
      d.kind.clones = true → CloneMessage.tryClone d.msg = true
  | .returns i o => ∀ d, s.proc.calls[i]? = some d → d.frame.isSome = true →
      s.proc.relay.rx = true ∧ (d.kind.isReq = true → o.replies = true)
  | _ => True

/-- The invariant of the runs that lose no reply. -/
structure Tidy (s : Serving S) : Prop extends RepliedOnce s where
  bound : ∀ i item, (some i, item) ∈ s.put → i < s.frames.length
  jobs : ∀ j ∈ s.proc.jobs, s.putFor j.origin = []
    ∧ ∃ pkt, s.frames[j.origin]? = some pkt ∧ j.Serves pkt
  distinct : (s.proc.jobs.map Job.origin).Nodup

omit [CloneMessage S] in
theorem putFor_move (s : Serving S) (frame : Option ℕ) (p : Process S) (i : ℕ) :
    (s.move frame p).putFor i = s.putFor i ++ if frame = some i then s.proc.puts p else [] := by
  by_cases hf : frame = some i
  · simp [putFor, move, List.filter_map, Function.comp_def, hf]
  · simp [putFor, move, List.filter_map, Function.comp_def, hf]

/-- A step of a process other than the end of a call answers nobody. -/
theorem isReply_act {p p' : Process S} {l : ProcLabel S} (hl : l.ends = false)
    (h : p.act e l = some p') : ∀ item ∈ p.puts p', item.isReply = false := by
  by_cases hv : ∃ need, l = .visit need
  · obtain ⟨need, rfl⟩ := hv
    exact Process.putsOnly_visit (fun _ => rfl) (fun _ _ _ => rfl) (fun _ => rfl) h
  · exact Process.putsOnly_act (fun _ => rfl) (fun _ _ _ => rfl) hl (not_exists.1 hv) h

theorem tidy_start : Tidy (start : Serving S) where
  once := by simp [start]
  others := by simp [start]
  bound := by simp [start]
  jobs := by simp [start, Process.jobs, Process.new]
  distinct := by simp [start, Process.jobs, Process.new]

/-- A step that leaves the tasks alone and answers nobody. -/
theorem Tidy.quiet (h : Tidy s) {p : Process S} (hj : s.proc.jobs.Perm p.jobs)
    (hp : ∀ item ∈ s.proc.puts p, item.isReply = false) : Tidy (s.move none p) := by
  have hput : ∀ i, (s.move none p).putFor i = s.putFor i := by
    intro i
    rw [putFor_move]
    simp
  refine ⟨⟨fun i pkt hi hw => ?_, fun item hi => ?_⟩, fun i item hi => ?_, fun j hj' => ?_, ?_⟩
  · rw [hput]
    exact h.once i pkt hi fun ⟨j, hj', ho⟩ => hw ⟨j, hj.mem_iff.1 hj', ho⟩
  · rcases List.mem_append.1 hi with hi | hi
    · exact h.others item hi
    · obtain ⟨item', hi, heq⟩ := List.mem_map.1 hi
      cases heq
      exact hp _ hi
  · rcases List.mem_append.1 hi with hi | hi
    · exact h.bound i item hi
    · obtain ⟨item', hi, heq⟩ := List.mem_map.1 hi
      cases heq
  · rw [hput]
    exact h.jobs j (hj.mem_iff.2 hj')
  · exact (hj.map Job.origin).nodup_iff.1 h.distinct

/-- A step that the log does not see. -/
theorem Tidy.aside (h : Tidy s) {p : Process S} (hj : s.proc.jobs.Perm p.jobs)
    (hp : s.proc.puts p = []) : Tidy { s with proc := p } := by
  have hmove := h.quiet hj (by simp [hp])
  simpa [move, hp] using hmove

/-- A task leaves as its reply goes out. -/
theorem Tidy.ended (h : Tidy s) {p : Process S} {j : Job S} {item : ProtocolItem S}
    (hj : s.proc.jobs.Perm (j :: p.jobs)) (hp : s.proc.puts p = [item]) (ha : j.AnsweredBy item) :
    Tidy (s.move (some j.origin) p) := by
  have hmem : ∀ {j'}, j' ∈ p.jobs → j' ∈ s.proc.jobs := fun hj' =>
    hj.mem_iff.2 (List.mem_cons_of_mem _ hj')
  have hdistinct := (hj.map Job.origin).nodup_iff.1 h.distinct
  rw [List.map_cons, List.nodup_cons] at hdistinct
  obtain ⟨hnone, pkt, hpkt, hserves⟩ := h.jobs j (hj.mem_iff.2 List.mem_cons_self)
  have hput : (s.move (some j.origin) p).put = s.put ++ [(some j.origin, item)] := by
    simp [move, hp]
  refine ⟨⟨fun i pkt' hi hw => ?_, fun item' hi => ?_⟩, fun i item' hi => ?_, fun j' hj' => ?_,
    hdistinct.2⟩
  · rw [putFor_move, hp]
    by_cases ho : j.origin = i
    · subst ho
      obtain rfl : pkt = pkt' := Option.some.inj (hpkt.symm.trans hi)
      rw [hnone, if_pos rfl]
      exact ⟨item, rfl, hserves.answers ha⟩
    · rw [if_neg (by simpa using ho), List.append_nil]
      refine h.once i pkt' hi ?_
      rintro ⟨j', hj', rfl⟩
      rcases List.mem_cons.1 (hj.mem_iff.1 hj') with rfl | hj'
      · exact ho rfl
      · exact hw ⟨j', hj', rfl⟩
  · rw [hput, List.mem_append] at hi
    exact h.others item' (hi.resolve_right (by simp))
  · rw [hput, List.mem_append, List.mem_singleton] at hi
    rcases hi with hi | hi
    · exact h.bound i item' hi
    · cases hi
      exact (List.getElem?_eq_some_iff.1 hpkt).1
  · have hne : j.origin ≠ j'.origin := fun ho => hdistinct.1 (ho ▸ List.mem_map_of_mem hj')
    rw [putFor_move, if_neg (by simpa using hne), List.append_nil]
    exact h.jobs j' (hmem hj')

/-- A task that leaves without a reply is missed. -/
theorem Tidy.lost (h : Tidy s) {frame : Option ℕ} {p : Process S} {j : Job S}
    (hj : s.proc.jobs.Perm (j :: p.jobs)) (hp : frame = none ∨ s.proc.puts p = []) :
    ¬ RepliedOnce (s.move frame p) := by
  intro hr
  have hdistinct := (hj.map Job.origin).nodup_iff.1 h.distinct
  rw [List.map_cons, List.nodup_cons] at hdistinct
  obtain ⟨hnone, pkt, hpkt, -⟩ := h.jobs j (hj.mem_iff.2 List.mem_cons_self)
  have hover : ¬ (s.move frame p).UnderWay j.origin := by
    rintro ⟨j', hj', ho⟩
    exact hdistinct.1 (ho ▸ List.mem_map_of_mem hj')
  obtain ⟨item, hitem, -⟩ := hr.once j.origin pkt hpkt hover
  rw [putFor_move, hnone] at hitem
  rcases hp with rfl | hp
  · simp at hitem
  · simp [hp] at hitem

theorem Tidy.putFor_length (h : Tidy s) : s.putFor s.frames.length = [] := by
  rw [putFor, List.map_eq_nil_iff, List.filter_eq_nil_iff]
  rintro ⟨i, item⟩ hi heq
  obtain rfl : i = some s.frames.length := by simpa using heq
  exact absurd (h.bound _ item hi) (Nat.lt_irrefl _)

theorem Tidy.origin_lt (h : Tidy s) {j : Job S} (hj : j ∈ s.proc.jobs) :
    j.origin < s.frames.length := by
  obtain ⟨-, pkt, hpkt, -⟩ := h.jobs j hj
  exact (List.getElem?_eq_some_iff.1 hpkt).1

/-- The task of a frame is spawned. -/
theorem Tidy.spawn (h : Tidy s) {p : Process S} {j : Job S} {pkt : ProtocolPacket}
    (hj : p.jobs = s.proc.jobs ++ [j]) (ho : j.origin = s.frames.length) (hserves : j.Serves pkt) :
    Tidy { s with proc := p, frames := s.frames ++ [pkt] } := by
  refine ⟨⟨fun i pkt' hi hw => ?_, h.others⟩, fun i item hi => ?_, fun j' hj' => ?_, ?_⟩
  · have hne : i ≠ s.frames.length := by
      rintro rfl
      exact hw ⟨j, by simp [hj], ho⟩
    have hlt : i < s.frames.length := by
      have := (List.getElem?_eq_some_iff.1 hi).1
      simp only [List.length_append, List.length_singleton] at this
      omega
    refine h.once i pkt' ?_ fun ⟨j', hj', ho'⟩ => hw ⟨j', by simp [hj, hj'], ho'⟩
    rwa [List.getElem?_append_left hlt] at hi
  · have := h.bound i item hi
    simp only [List.length_append]
    omega
  · rw [hj, List.mem_append, List.mem_singleton] at hj'
    rcases hj' with hj' | rfl
    · obtain ⟨hnone, pkt', hpkt', hs⟩ := h.jobs j' hj'
      refine ⟨hnone, pkt', ?_, hs⟩
      rwa [List.getElem?_append_left (h.origin_lt hj')]
    · exact ⟨ho ▸ h.putFor_length, pkt, by simp [ho], hserves⟩
  · rw [hj, List.map_append, List.nodup_append]
    refine ⟨h.distinct, List.nodup_singleton _, fun i hi i' hi' => ?_⟩
    obtain ⟨j', hj', rfl⟩ := List.mem_map.1 hi
    have := h.origin_lt hj'
    rw [List.map_singleton, List.mem_singleton] at hi'
    omega

/-- A `Send` frame that spawns no task is missed. -/
theorem Tidy.unread (h : Tidy s) {pkt : ProtocolPacket} :
    ¬ RepliedOnce { s with frames := s.frames ++ [pkt] } := by
  intro hr
  obtain ⟨item, hitem, -⟩ := hr.once s.frames.length pkt (by simp) fun ⟨j, hj, ho⟩ =>
    absurd (h.origin_lt hj) (by omega)
  have hnone := h.putFor_length
  simp only [putFor] at hitem hnone
  rw [hnone] at hitem
  cases hitem

/-- The task of a frame. -/
def taskOf (p : Process S) (n : ℕ) (pkt : ProtocolPacket) (msg : S) : Job S :=
  let d := p.dispatch n pkt.header.argument msg (pkt.header.flags.contains .argument)
  ⟨n, d.kind, msg, pkt.header.argument⟩

theorem serves_taskOf (hc : c.Typed) {pkt : ProtocolPacket} {msg : S} (h : pkt.Carries c msg)
    (p : Process S) (n : ℕ) : (taskOf p n pkt msg).Serves pkt := by
  obtain ⟨tt, data, k, htt, -, -, hreg, hdec⟩ := h.loads
  refine ⟨?_, rfl, ?_, ?_⟩
  · rcases hreq : pkt.header.flags.contains .argument with _ | _ <;>
      simp [taskOf, Process.dispatch, hreq, CallKind.isReq]
  · rw [htt, taskOf, hc k tt data msg hreg hdec]
  · rcases hreq : pkt.header.flags.contains .argument with _ | _ <;>
      simp [taskOf, Process.dispatch, hreq, CallKind.withError]

theorem step_read (s : Serving S) (pkt : ProtocolPacket) (hs : s.proc.relay.started = true)
    (hi : s.proc.inbound = .reading) : (serving c e).step s (.read pkt)
      = some { s.move none (s.proc.read c e pkt s.frames.length) with
          frames := s.frames ++ if pkt.header.kind = .send then [pkt] else [] } := by
  simp only [serving, step, hs, hi]

theorem read_eq_some {pkt : ProtocolPacket} (h : s.step c e (.read pkt) = some s') :
    s' = { s.move none (s.proc.read c e pkt s.frames.length) with
      frames := s.frames ++ if pkt.header.kind = .send then [pkt] else [] } := by
  simp only [step] at h
  split at h
  · cases h
    rfl
  · cases h

theorem tidy_read (hc : c.Typed) (h : Tidy s) {pkt : ProtocolPacket}
    (hs : s.step c e (.read pkt) = some s') :
    (Replies c s (.read pkt) → Tidy s') ∧ (RepliedOnce s' → Replies c s (.read pkt)) := by
  rw [read_eq_some hs]
  have hsilent : ∀ item ∈ s.proc.puts (s.proc.read c e pkt s.frames.length), _ :=
    Process.putsOnly_read (Q := fun item => item.isReply = false) rfl pkt _
  rcases Process.read_cases c e s.proc pkt s.frames.length with ⟨msg, hmsg, hread⟩ | ⟨hnot, hcalls⟩
  · rw [if_pos hmsg.kind]
    refine ⟨fun _ => ?_, fun _ _ => ⟨msg, hmsg⟩⟩
    have ht := h.quiet (p := { s.proc.read c e pkt s.frames.length with calls := s.proc.calls })
      (.refl _) hsilent
    refine ht.spawn (p := s.proc.read c e pkt s.frames.length)
      (j := taskOf s.proc s.frames.length pkt msg) ?_ rfl (serves_taskOf hc hmsg _ _)
    rw [hread, Process.jobs, List.filterMap_append]
    rfl
  · have hjobs := Process.jobs_of_calls hcalls
    have ht := h.quiet (.of_eq hjobs.symm) hsilent
    by_cases hk : pkt.header.kind = .send
    · rw [if_pos hk]
      refine ⟨fun hC => ?_, fun hr => absurd hr ht.unread⟩
      obtain ⟨msg, hmsg⟩ := hC hk
      exact absurd hmsg (hnot msg)
    · rw [if_neg hk, List.append_nil]
      exact ⟨fun _ => ht, fun _ hsend => absurd hsend hk⟩

theorem tidy_deliver (h : Tidy s) {i : ℕ} {key : Slab.Key} {mid : UInt64}
    (hs : s.step c e (.act (.deliver i key mid)) = some s') :
    (Replies c s (.act (.deliver i key mid)) → Tidy s')
      ∧ (RepliedOnce s' → Replies c s (.act (.deliver i key mid))) := by
  obtain ⟨p, hp, rfl⟩ := Option.map_eq_some_iff.1 hs
  obtain ⟨d, r, todo, hi, htodo, hsilent, hcalls⟩ :=
    Process.deliver_cases (Q := fun item => item.isReply = false) (fun _ _ _ => rfl) hp
  rcases hcalls with ⟨hfails, hcalls⟩ | ⟨hfails, hcalls⟩
  · have hperm := Process.perm_jobs_eraseIdx hi
    rw [← hcalls] at hperm
    rcases hf : d.frame with _ | fmid
    · rw [Call.job?, hf] at hperm
      refine ⟨fun _ => h.quiet hperm hsilent, fun _ d' hi' hsome => ?_⟩
      rw [hi] at hi'
      cases hi'
      simp [hf] at hsome
    · rw [Call.job?, hf] at hperm
      refine ⟨fun hC => ?_, fun hr => absurd hr (h.lost hperm (.inl rfl))⟩
      obtain ⟨-, pkt, -, hserves⟩ := h.jobs _ (hperm.mem_iff.2 List.mem_cons_self)
      rcases hfails with ⟨hclones, hno⟩ | ⟨herr, -⟩
      · rw [hC d hi (by simp [hf]) hclones] at hno
        cases hno
      · exact absurd herr (by simp [hserves.plain])
  · have hjobs : p.jobs = s.proc.jobs := by
      rw [Process.jobs, hcalls]
      exact Pool.filterMap_set_of_eq hi _ rfl
    refine ⟨fun _ => h.quiet (.of_eq hjobs.symm) hsilent, ?_⟩
    intro _ d' hi' _ hclones
    rw [hi] at hi'
    cases hi'
    by_contra hno
    exact hfails (.inl ⟨hclones, by simpa using hno⟩)

theorem tidy_act (h : Tidy s) {l : ProcLabel S} (hd : ∀ i key mid, l ≠ .deliver i key mid)
    (hs : s.step c e (.act l) = some s') : Tidy s' := by
  simp only [step] at hs
  split_ifs at hs with hl
  rw [Bool.not_eq_true] at hl
  obtain ⟨p, hp, rfl⟩ := Option.map_eq_some_iff.1 hs
  exact h.quiet (.of_eq (Process.jobs_act hl hd hp).symm) (isReply_act hl hp)

theorem tidy_returns (h : Tidy s) {i : ℕ} {o : Outcome S}
    (hs : s.step c e (.returns i o) = some s') :
    (Replies c s (.returns i o) → Tidy s') ∧ (RepliedOnce s' → Replies c s (.returns i o)) := by
  obtain ⟨p, hp, rfl⟩ := Option.map_eq_some_iff.1 hs
  obtain ⟨d, hi⟩ := Process.returns_call hp
  have hperm := Process.perm_jobs_eraseIdx hi
  rcases hj : d.job? with _ | j
  · have hf : d.frame = none := by simpa [Call.job?] using hj
    obtain ⟨hcalls, hputs⟩ := Process.returns_user hi hf hp
    rw [← hcalls, hj] at hperm
    have hserved : s.proc.served i = none := by simp [Process.served, hi, hj]
    rw [hserved]
    refine ⟨fun _ => h.quiet hperm (by simp [hputs]), fun _ d' hi' hsome => ?_⟩
    rw [hi] at hi'
    cases hi'
    simp [hf] at hsome
  · obtain ⟨hcalls, hputs⟩ := Process.returns_job hi hj hp
    rw [← hcalls, hj] at hperm
    have hserved : s.proc.served i = some j.origin := by simp [Process.served, hi, hj]
    obtain ⟨mid, hf, rfl⟩ := Option.map_eq_some_iff.1 hj
    rw [hserved]
    by_cases hC : s.proc.relay.rx = true ∧ (d.kind.isReq = true → o.replies = true)
    · rw [if_pos hC] at hputs
      obtain ⟨item, hputs, ha⟩ := hputs
      refine ⟨fun _ => h.ended hperm hputs ha, fun _ d' hi' _ => ?_⟩
      rw [hi] at hi'
      cases hi'
      exact hC
    · rw [if_neg hC] at hputs
      refine ⟨fun hC' => absurd (hC' d hi (by simp [hf])) hC, fun hr => ?_⟩
      exact absurd hr (h.lost hperm (.inr hputs))

theorem tidy_step (hc : c.Typed) (h : Tidy s) {l : ServingLabel S}
    (hs : (serving c e).step s l = some s') :
    (Replies c s l → Tidy s') ∧ (RepliedOnce s' → Replies c s l) := by
  cases l with
  | call kind msg =>
    cases hs
    refine ⟨fun _ => ?_, fun _ => trivial⟩
    exact h.aside (.of_eq (by simp [Process.jobs, Call.job?])) (Process.puts_of_eq rfl)
  | act l =>
    by_cases hd : ∃ i key mid, l = .deliver i key mid
    · obtain ⟨i, key, mid, rfl⟩ := hd
      exact tidy_deliver h hs
    · simp only [not_exists] at hd
      refine ⟨fun _ => tidy_act (c := c) h hd hs, fun _ => ?_⟩
      cases l with
      | deliver i key mid => exact absurd rfl (hd i key mid)
      | _ => trivial
  | returns i o => exact tidy_returns (c := c) (e := e) h hs
  | write =>
    refine ⟨fun _ => ?_, fun _ => trivial⟩
    obtain ⟨p, hp, rfl⟩ := Option.map_eq_some_iff.1 hs
    have hputs := Process.puts_take hp
    obtain ⟨o, items, -, rfl⟩ := Process.take_eq_some hp
    exact h.aside (.refl _) hputs
  | read pkt => exact tidy_read hc h hs

/-- The runs in which every `Send` frame has its one reply as soon as its handling has ended are
exactly those in which no step loses one. -/
theorem repliedOnce_iff (hc : c.Typed) (e : Endpoint) (ls : List (ServingLabel S)) :
    (serving c e).Always RepliedOnce ls ↔ (serving c e).Throughout (Replies c) ls :=
  Lts.always_iff_throughout (J := Tidy) tidy_start (fun _ h => h.toRepliedOnce)
    (fun _ _ _ h hs => (tidy_step hc h hs).1) (fun _ _ _ h hs => (tidy_step hc h hs).2) ls

end Serving

end Replies

namespace Flag

/-- A process whose relay is started, with these calls and item channel. -/
def process (calls : List (Call Flag)) (items : List (Outgoing Flag)) : Process Flag :=
  { Process.new with
    relay := { TcpRelay.new with selfId := 1, started := true, items }
    calls }

/-- The task of a `Send` frame with a request. -/
def task (todo : Option (List Receiver)) : Call Flag :=
  ⟨0, .request (.except 1) none none, ⟨true⟩, some 7, todo⟩

theorem codec_typed : codec.Typed := by
  intro k tt data msg hreg _
  have : tt = "app::Flag" := by simpa [codec] using hreg
  rw [this]
  rfl

end Flag

namespace Serving

/-- A request that no receiver takes is answered with the error. -/
theorem request_replied_once : Flag.codec.Typed
    ∧ (∃ s, (serving Flag.codec .flag).run [.act .init, .read (Flag.frame "app::Flag" true),
        .act (.start 0), .returns 0 (.returned .noReceivers)] = some s
      ∧ s.put = [(some 0, .event (.response 7 (.error .noReceivers)))])
    ∧ (serving Flag.codec .flag).Always RepliedOnce
        [.act .init, .read (Flag.frame "app::Flag" true), .act (.start 0),
          .returns 0 (.returned .noReceivers)] := by
  have h1 : (serving Flag.codec .flag).step .start (.act .init)
      = some ⟨Flag.process [] [], [], []⟩ := rfl
  have h2 : (serving Flag.codec .flag).step ⟨Flag.process [] [], [], []⟩
      (.read (Flag.frame "app::Flag" true))
      = some ⟨Flag.process [Flag.task none] [], [Flag.frame "app::Flag" true], []⟩ := by
    refine (step_read _ _ rfl rfl).trans ?_
    rw [Process.read_carries ((Flag.carries_frame _ _ ⟨true⟩).2 ⟨rfl, rfl⟩)]
    rfl
  have h3 : (serving Flag.codec .flag).step
      ⟨Flag.process [Flag.task none] [], [Flag.frame "app::Flag" true], []⟩ (.act (.start 0))
      = some ⟨Flag.process [Flag.task (some [])] [], [Flag.frame "app::Flag" true], []⟩ := rfl
  have h4 : (serving Flag.codec .flag).step
      ⟨Flag.process [Flag.task (some [])] [], [Flag.frame "app::Flag" true], []⟩
      (.returns 0 (.returned .noReceivers))
      = some ⟨Flag.process [] [(some (.event (.response 7 (.error .noReceivers))), 0)],
        [Flag.frame "app::Flag" true],
        [(some 0, .event (.response 7 (.error .noReceivers)))]⟩ := rfl
  refine ⟨Flag.codec_typed, ⟨_, (Lts.runFrom_cons h1 _).trans ((Lts.runFrom_cons h2 _).trans
    ((Lts.runFrom_cons h3 _).trans (Lts.runFrom_cons h4 _))), rfl⟩,
    (repliedOnce_iff Flag.codec_typed _ _).2 ?_⟩
  refine (Lts.throughoutFrom_cons h1 _).2 ⟨trivial, (Lts.throughoutFrom_cons h2 _).2 ⟨fun _ => ?_,
    (Lts.throughoutFrom_cons h3 _).2 ⟨trivial, (Lts.throughoutFrom_cons h4 _).2 ⟨?_, trivial⟩⟩⟩⟩
  · exact ⟨⟨true⟩, (Flag.carries_frame _ _ _).2 ⟨rfl, rfl⟩⟩
  · exact fun _ _ _ => ⟨rfl, fun _ => rfl⟩

/-- A message of a type that is not registered has no reply. -/
theorem unregistered_unanswered :
    ¬ ∀ s, (serving Flag.codec .flag).Reachable s → RepliedOnce s := by
  intro h
  have hinit : (serving Flag.codec .flag).step .start (.act .init)
      = some ⟨Flag.process [] [], [], []⟩ := rfl
  have hread := step_read (c := Flag.codec) (e := .flag) ⟨Flag.process [] [], [], []⟩
    (Flag.frame "app::Gone" false) rfl rfl
  have htidy := (tidy_step Flag.codec_typed tidy_start hinit).1 trivial
  obtain ⟨msg, hmsg⟩ := (tidy_step Flag.codec_typed htidy hread).2
    (h _ ((Lts.Reachable.start.step hinit).step hread)) rfl
  exact absurd ((Flag.carries_frame _ _ _).1 hmsg).1 (by decide)

end Serving

end MessageBus
