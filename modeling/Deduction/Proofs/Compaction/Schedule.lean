/-
  The order in which steps are scheduled.

  The scheduler keeps a queue of ready vertices and counts off the edges to the
  dependencies of the others.  As steps depend on earlier steps only, the least
  remaining step is always ready: the scheduler takes the steps in the order of
  their numbers.

  * `layOut`: places steps one after another, in a given order;
  * `Counted.count_down`, `release_eq_ok`: counting a vertex down preserves the
    invariant of the counters, and no counter is taken below zero;
  * `Counted.place`: placing a ready vertex preserves it;
  * `schedule_eq_layOut`: the scheduler lays out the steps in ascending order;
  * `compact_eq_layOut`: so the compacted proof of a line lays out the lines
    that it rests on, in the order of the proof.
-/
import Deduction.Proofs.Compaction.Reachability
import Mathlib.Data.List.Perm.Subperm

namespace Deduction

namespace Compaction

/-! ## Placing steps in a given order -/

/-- The new numbers of the dependencies of a step, where `placed` maps the
    numbers of placed steps to their new numbers.  A closing line cites
    nothing. -/
def citations (placed : List (LineNumber × LineNumber)) (s : Step) :
    Except CompactionError (List LineNumber) :=
  if s.kind = .directProof then .ok []
  else s.dependencies.mapM fun d =>
    match placed.lookup d with
    | some n => .ok n
    | none => .error (.unplacedDependency s.number)

/-- Places the steps behind the line `cursor`, one after another. -/
def layOut : (cursor : LineNumber) → (placed : List (LineNumber × LineNumber)) → List Step →
    Except CompactionError (List Line)
  | _, _, [] => .ok []
  | cursor, placed, s :: rest =>
    match s.kind.numberAfter? cursor with
    | none => .error .numbersExhausted
    | some number => do
      let placed := (s.number, number) :: placed
      let refs ← citations placed s
      let lines ← layOut number placed rest
      return ⟨number, s.formula, ⟨s.rule, refs⟩⟩ :: lines

/-- Placing the first of several steps: what it depends on is placed, and what
    the others depend on is placed or comes among them. -/
theorem placed_cons {placed : List LineNumber} {t : Step} {steps : List Step}
    (ht : ∀ u ∈ steps, t.number < u.number)
    (h : ∀ u ∈ t :: steps, ∀ d ∈ u.dependencies,
      d < u.number ∧ (d ∈ placed ∨ d ∈ (t :: steps).map (·.number))) :
    (∀ d ∈ t.dependencies, d ∈ t.number :: placed) ∧
      ∀ u ∈ steps, ∀ d ∈ u.dependencies,
        d < u.number ∧ (d ∈ t.number :: placed ∨ d ∈ steps.map (·.number)) := by
  constructor
  · intro d hd
    obtain ⟨hlt, h | h⟩ := h t List.mem_cons_self d hd
    · exact List.mem_cons_of_mem _ h
    rcases List.mem_cons.1 h with rfl | h
    · exact List.mem_cons_self
    · obtain ⟨u, hu, rfl⟩ := List.mem_map.1 h
      exact absurd hlt (ht u hu).not_gt
  · intro u hu d hd
    obtain ⟨hlt, h | h⟩ := h u (List.mem_cons_of_mem _ hu) d hd
    · exact ⟨hlt, .inl (List.mem_cons_of_mem _ h)⟩
    rcases List.mem_cons.1 h with rfl | h
    · exact ⟨hlt, .inl List.mem_cons_self⟩
    · exact ⟨hlt, .inr h⟩

/-! ## Counting down -/

section
variable {unplaced : Nat → Bool} {owed : List Nat} {vertices : Array Vertex} {ready : Queue}
  {v v' : Vertex} {id k : Nat}

theorem getElem?_set (h : vertices[id]? = some v) :
    (vertices.setIfInBounds id v')[k]? = if id = k then some v' else vertices[k]? := by
  rw [Array.getElem?_setIfInBounds]
  split
  · rw [if_pos (Array.getElem?_eq_some_iff.1 h).1]
  · rfl

/-- What changes at a vertex are the counter and the edges to what it unblocks. -/
theorem frame_set (h : vertices[id]? = some v) (blocking : Nat) (unblocks : List Nat) :
    frame (vertices.setIfInBounds id ⟨v.step, v.dependencies, blocking, unblocks⟩) =
      frame vertices := by
  funext k
  rw [frame, frame, getElem?_set h]
  split
  · rename_i hk
    rw [← hk, h]; rfl
  · rfl

/-- **Counting a vertex down preserves the invariant**, with one edge less to be
    counted. -/
theorem Counted.count_down {blocking : Nat} (h : Counted unplaced (id :: owed) vertices ready)
    (hid : unplaced id = true) (hv : vertices[id]? = some v) (hblocking : v.blocking = blocking + 1) :
    Counted unplaced owed (vertices.setIfInBounds id { v with blocking })
      (if blocking = 0 then enqueue (v.step.number, id) ready else ready) where
  blocking k w hw := by
    rw [getElem?_set hv] at hw
    split at hw
    · rename_i hk
      obtain rfl := Option.some.inj hw
      have hcount := h.blocking id v hv
      rw [hblocking, List.count_cons_self] at hcount
      rw [← hk]
      exact Nat.succ.inj hcount
    · rename_i hk
      rw [h.blocking k w hw, List.count_cons_of_ne hk]
  unblocks d w hw hd k := by
    rw [frame_set hv]
    rw [getElem?_set hv] at hw
    split at hw
    · rename_i hid
      obtain rfl := Option.some.inj hw
      exact h.unblocks d v (hid ▸ hv) hd k
    · exact h.unblocks d w hw hd k
  closed := by
    rw [frame_set hv]
    exact h.closed
  queue := by
    refine h.queue.enqueue_of_ready ?_ fun a => ?_
    · rintro ⟨w, hw, -, -, hzero⟩
      obtain rfl := Option.some.inj (hv.symm.trans hw)
      rw [hblocking] at hzero
      cases hzero
    · obtain ⟨n, k⟩ := a
      simp only [IsReady, getElem?_set hv]
      by_cases hk : id = k
      · subst hk
        simp [hv, hid, hblocking, eq_comm]
      · simp [hk, Ne.symm hk]

/-- **Counting down all that waits for a placed vertex** succeeds, as each of the
    counters has been counting these edges. -/
theorem release_eq_ok (h : Counted unplaced owed vertices ready)
    (howed : ∀ k ∈ owed, unplaced k = true ∧ ∃ e, frame vertices k = some e) :
    ∃ vertices' ready', release owed vertices ready = .ok (vertices', ready') ∧
      frame vertices' = frame vertices ∧ Counted unplaced [] vertices' ready' := by
  induction owed generalizing vertices ready with
  | nil => exact ⟨vertices, ready, rfl, rfl, h⟩
  | cons id owed ih =>
    obtain ⟨hid, e, he⟩ := howed id List.mem_cons_self
    obtain ⟨v, hv, -⟩ := Option.map_eq_some_iff.1 he
    obtain ⟨blocking, hblocking⟩ : ∃ blocking, v.blocking = blocking + 1 := by
      rw [h.blocking id v hv, List.count_cons_self]
      exact ⟨_, rfl⟩
    have hframe := frame_set hv blocking v.unblocks
    obtain ⟨vertices', ready', hrelease, hframe', hcounted⟩ :=
      ih (h.count_down hid hv hblocking)
        fun k hk => by rw [hframe]; exact howed k (List.mem_cons_of_mem _ hk)
    refine ⟨vertices', ready', ?_, hframe'.trans hframe, hcounted⟩
    obtain ⟨s, dependencies, b, unblocks⟩ := v
    obtain rfl : b = blocking + 1 := hblocking
    rw [release, hv]
    exact hrelease

/-! ## Placing a vertex -/

/-- Once `id` is placed, it does not count any more. -/
theorem countP_unplaced (hid : unplaced id = true) (ds : List Nat) :
    ds.countP unplaced = (ds.countP fun d => unplaced d && d != id) + ds.count id := by
  induction ds with
  | nil => rfl
  | cons d ds ih =>
    rw [List.countP_cons, List.countP_cons, List.count_cons, ih]
    by_cases hd : d = id
    · simp [hd, hid]; omega
    · simp [hd]; omega

/-- What a ready vertex depends on has been placed. -/
theorem Counted.placed_of_ready (h : Counted unplaced [] vertices ready)
    (hv : vertices[id]? = some v) (hblocking : v.blocking = 0) :
    ∀ d ∈ v.dependencies, unplaced d = false := by
  intro d hd
  have hcount := h.blocking id v hv
  rw [hblocking, List.count_nil, Nat.add_zero] at hcount
  exact Bool.eq_false_iff.2 (List.countP_eq_zero.1 hcount.symm d hd)

/-- What waits for a ready vertex has not been placed. -/
theorem Counted.unplaced_of_mem_unblocks (h : Counted unplaced [] vertices ready)
    (hv : vertices[id]? = some v) (hid : unplaced id = true) (hblocking : v.blocking = 0)
    (hk : k ∈ v.unblocks) :
    (unplaced k && k != id) = true ∧ ∃ e, frame vertices k = some e := by
  have hedges : 0 < (frame vertices).edges k id := by
    rw [← h.unblocks id v hv hid k]
    exact List.count_pos_iff.2 hk
  cases hw : vertices[k]? with
  | none => rw [Frame.edges, frame, hw] at hedges; cases hedges
  | some w =>
    rw [Frame.edges, frame_eq_some hw] at hedges
    have hmem : id ∈ w.dependencies := List.count_pos_iff.1 hedges
    refine ⟨?_, _, frame_eq_some hw⟩
    rw [Bool.and_eq_true, bne_iff_ne]
    constructor
    · by_contra hplaced
      have hplaced : unplaced id = false :=
        h.closed k _ (frame_eq_some hw) (by simpa using hplaced) id hmem
      rw [hid] at hplaced; cases hplaced
    · rintro rfl
      -- a ready vertex waits for nothing, so not for itself
      obtain rfl := Option.some.inj (hv.symm.trans hw)
      have hplaced := h.placed_of_ready hv hblocking k hmem
      rw [hid] at hplaced; cases hplaced

/-- With the edges to it still to be counted, a ready vertex may be placed. -/
theorem Counted.owe {n : LineNumber} (h : Counted unplaced [] vertices ((n, id) :: ready))
    (hv : vertices[id]? = some v) (hnumber : v.step.number = n) (hid : unplaced id = true)
    (hblocking : v.blocking = 0) :
    Counted (fun d => unplaced d && d != id) v.unblocks
      (vertices.setIfInBounds id { v with unblocks := [] }) ready where
  blocking k w hw := by
    have hcount : ∀ u : Vertex, vertices[k]? = some u → u.blocking =
        (u.dependencies.countP fun d => unplaced d && d != id) + v.unblocks.count k := by
      intro u hu
      rw [h.blocking k u hu, h.unblocks id v hv hid k, Frame.edges, frame_eq_some hu]
      exact countP_unplaced hid u.dependencies
    rw [getElem?_set hv] at hw
    split at hw
    · rename_i hk
      obtain rfl := Option.some.inj hw
      exact hcount v (hk ▸ hv)
    · exact hcount w hw
  unblocks d w hw hd k := by
    rw [Bool.and_eq_true, bne_iff_ne] at hd
    rw [frame_set hv]
    rw [getElem?_set hv, if_neg hd.2.symm] at hw
    exact h.unblocks d w hw hd.1 k
  closed k e he hk d hd := by
    rw [frame_set hv] at he
    refine Bool.and_eq_false_iff.2 (.inl ?_)
    by_cases hkid : k = id
    · -- nothing blocks a ready vertex
      rw [hkid, frame_eq_some hv] at he
      obtain rfl := Option.some.inj he
      exact h.placed_of_ready hv hblocking d hd
    · have hplaced : unplaced k = false := by simpa [hkid] using hk
      exact h.closed k e he hplaced d hd
  queue := by
    refine h.queue.tail.congr fun a => ?_
    obtain ⟨m, k⟩ := a
    simp only [IsReady, getElem?_set hv]
    by_cases hk : id = k
    · subst hk
      refine iff_of_false (by simp) ?_
      rintro ⟨⟨w, hw, rfl, -⟩, hne⟩
      obtain rfl := Option.some.inj (hv.symm.trans hw)
      exact hne (by rw [hnumber])
    · simp [hk, Ne.symm hk]

/-- **Placing a ready vertex preserves the invariant.** -/
theorem Counted.place {n : LineNumber} (h : Counted unplaced [] vertices ((n, id) :: ready)) :
    ∃ v, vertices[id]? = some v ∧ v.step.number = n ∧ unplaced id = true ∧
      ∃ vertices' ready',
        release v.unblocks (vertices.setIfInBounds id { v with unblocks := [] }) ready =
          .ok (vertices', ready') ∧
        frame vertices' = frame vertices ∧
        Counted (fun d => unplaced d && d != id) [] vertices' ready' := by
  obtain ⟨v, hv, hnumber, hid, hblocking⟩ := (h.queue.mem_iff _).1 List.mem_cons_self
  have hframe := frame_set hv v.blocking []
  obtain ⟨vertices', ready', hrelease, hframe', hcounted⟩ :=
    release_eq_ok (h.owe hv hnumber hid hblocking)
      fun k hk => by rw [hframe]; exact h.unplaced_of_mem_unblocks hv hid hblocking hk
  exact ⟨v, hv, hnumber, hid, vertices', ready', hrelease, hframe'.trans hframe, hcounted⟩

end

/-! ## The scheduler -/

/-- The edges of a graph lead to the vertices of the dependencies, which come
    earlier, and each step has one vertex. -/
structure Frame.Linked (F : Frame) : Prop where
  distinct : ∀ n j k, F.At n j → F.At n k → j = k
  linked : ∀ k e, F k = some e → List.Forall₂ F.At e.1.dependencies e.2
  earlier : ∀ k e, F k = some e → ∀ d ∈ e.1.dependencies, d < e.1.number

/-- The new number of the vertex `k`, if it has been placed. -/
def numberOf (numbers : Array (Option LineNumber)) (k : Nat) : Option LineNumber := numbers[k]?.join

theorem numberOf_set {numbers : Array (Option LineNumber)} {id : Nat} (h : id < numbers.size)
    (n : LineNumber) (k : Nat) :
    numberOf (numbers.setIfInBounds id (some n)) k = if id = k then some n else numberOf numbers k := by
  rw [numberOf, Array.getElem?_setIfInBounds]
  split
  · rfl
  · rfl

/-- Where the scheduler stands when the steps `rest` remain, and `placed` maps the
    numbers of the others to their new numbers. -/
structure Standing (F : Frame) (numbers : Array (Option LineNumber)) (vertices : Array Vertex)
    (ready : Queue) (placed : List (LineNumber × LineNumber)) (rest : List Step) : Prop where
  frame_eq : frame vertices = F
  room : ∀ k e, F k = some e → k < numbers.size
  counted : Counted (fun k => (numberOf numbers k).isNone) [] vertices ready
  placed : ∀ k e, F k = some e → placed.lookup e.1.number = numberOf numbers k
  mem_rest : ∀ t, t ∈ rest ↔ ∃ k e, F k = some e ∧ e.1 = t ∧ numberOf numbers k = none

namespace Standing

variable {F : Frame} {numbers : Array (Option LineNumber)} {vertices vertices' : Array Vertex}
  {ready ready' : Queue} {placed : List (LineNumber × LineNumber)} {rest : List Step} {t : Step}
  {v : Vertex} {id : Nat}

/-- A ready vertex is that of a remaining step. -/
theorem mem_of_ready (h : Standing F numbers vertices ready placed rest) {n : LineNumber} {k : Nat}
    (hk : (n, k) ∈ ready) : F.At n k ∧ ∃ u ∈ rest, u.number = n := by
  obtain ⟨v, hv, hnumber, hnone, -⟩ := (h.counted.queue.mem_iff _).1 hk
  have hframe := h.frame_eq ▸ frame_eq_some hv
  exact ⟨⟨_, hframe, hnumber⟩, v.step,
    (h.mem_rest _).2 ⟨k, _, hframe, rfl, Option.isNone_iff_eq_none.1 hnone⟩, hnumber⟩

/-- The least remaining step is the first of the ready ones. -/
theorem exists_ready (h : Standing F numbers vertices ready placed (t :: rest)) (hF : F.Linked)
    (hrest : ∀ u ∈ rest, t.number < u.number) : ∃ id ready' v, ready = (t.number, id) :: ready' ∧
      vertices[id]? = some v ∧ v.step = t := by
  have hleast : ∀ u ∈ t :: rest, t.number ≤ u.number := by
    intro u hu
    rcases List.mem_cons.1 hu with rfl | hu
    · exact le_rfl
    · exact (hrest u hu).le
  obtain ⟨k, e, he, rfl, hnone⟩ := (h.mem_rest t).1 List.mem_cons_self
  obtain ⟨v, hv, rfl⟩ := Option.map_eq_some_iff.1 (h.frame_eq ▸ he)
  -- a dependency that blocks it would be an earlier remaining step
  have hblocking : v.blocking = 0 := by
    rw [h.counted.blocking k v hv, List.count_nil, Nat.add_zero, List.countP_eq_zero]
    intro j hj hnone
    obtain ⟨d, hd, e', he', rfl⟩ := exists_of_forall₂ (hF.linked k _ he).flip hj
    have hmem := (h.mem_rest e'.1).2 ⟨j, e', he', rfl, Option.isNone_iff_eq_none.1 hnone⟩
    exact absurd (hF.earlier k _ he _ hd) (hleast _ hmem).not_gt
  have hready : (v.step.number, k) ∈ ready :=
    (h.counted.queue.mem_iff _).2 ⟨v, hv, rfl, Option.isNone_iff_eq_none.2 hnone, hblocking⟩
  cases ready with
  | nil => cases hready
  | cons a ready =>
    obtain ⟨n, j⟩ := a
    obtain ⟨hat, u, hu, rfl⟩ := h.mem_of_ready List.mem_cons_self
    have hle : u.number ≤ v.step.number := by
      rcases List.mem_cons.1 hready with heq | hready
      · exact (congrArg Prod.fst heq).ge
      · exact (List.pairwise_cons.1 h.counted.queue.sorted).1 _ hready
    have hnumber : u.number = v.step.number := hle.antisymm (hleast u hu)
    obtain rfl : j = k := hF.distinct _ j k hat ⟨_, he, hnumber.symm⟩
    exact ⟨j, ready, v, by rw [hnumber], hv, rfl⟩

/-- What is left when the vertex of `t` has got the new number `n`. -/
theorem next (h : Standing F numbers vertices ready placed (t :: rest)) (hF : F.Linked)
    (hrest : ∀ u ∈ rest, t.number < u.number) (hv : vertices[id]? = some v) (hstep : v.step = t)
    (n : LineNumber) (hframe : frame vertices' = frame vertices)
    (hcounted : Counted (fun k => (numberOf numbers k).isNone && k != id) [] vertices' ready') :
    Standing F (numbers.setIfInBounds id (some n)) vertices' ready' ((t.number, n) :: placed)
      rest := by
  subst hstep
  have hid : F id = some (v.step, v.dependencies) := h.frame_eq ▸ frame_eq_some hv
  have hroom := h.room id _ hid
  have hsame : ∀ k e, F k = some e → e.1.number = v.step.number → id = k :=
    fun k e he hnumber => hF.distinct _ id k ⟨_, hid, rfl⟩ ⟨e, he, hnumber⟩
  refine ⟨hframe.trans h.frame_eq, fun k e he => ?_, ?_, fun k e he => ?_, fun u => ?_⟩
  · rw [Array.size_setIfInBounds]
    exact h.room k e he
  · convert hcounted using 2 with k
    rw [numberOf_set hroom]
    by_cases hk : id = k
    · simp [hk]
    · simp [hk, Ne.symm hk]
  · rw [numberOf_set hroom, List.lookup_cons]
    by_cases hk : id = k
    · obtain rfl : e = (v.step, v.dependencies) := Option.some.inj ((hk ▸ he).symm.trans hid)
      simp [hk]
    · have hbeq : (e.1.number == v.step.number) = false := by
        simpa using fun hnumber => hk (hsame k e he hnumber)
      rw [hbeq, if_neg hk]
      exact h.placed k e he
  · constructor
    · intro hu
      obtain ⟨k, e, he, rfl, hnone⟩ := (h.mem_rest u).1 (List.mem_cons_of_mem _ hu)
      refine ⟨k, e, he, rfl, ?_⟩
      rw [numberOf_set hroom, if_neg, hnone]
      rintro rfl
      obtain rfl := Option.some.inj (hid.symm.trans he)
      exact lt_irrefl _ (hrest _ hu)
    · rintro ⟨k, e, he, rfl, hnone⟩
      rw [numberOf_set hroom] at hnone
      split at hnone
      · cases hnone
      rename_i hk
      refine (List.mem_cons.1 ((h.mem_rest e.1).2 ⟨k, e, he, rfl, hnone⟩)).resolve_left ?_
      exact fun heq => hk (hsame k e he (congrArg _ heq))

end Standing

theorem mapM_eq_mapM_of_forall₂ {α β γ ε : Type} {f : α → Except ε γ} {g : β → Except ε γ}
    {xs : List α} {ys : List β} (h : List.Forall₂ (fun x y => f x = g y) xs ys) :
    xs.mapM f = ys.mapM g := by
  induction h with
  | nil => rfl
  | cons hxy _ ih => rw [List.mapM_cons, List.mapM_cons, hxy, ih]

/-- A vertex cites what its step cites. -/
theorem Frame.Linked.citations_eq {F : Frame} (hF : F.Linked) {k : Nat} {v : Vertex}
    {numbers : Array (Option LineNumber)} {placed : List (LineNumber × LineNumber)}
    (hk : F k = some (v.step, v.dependencies))
    (hplaced : ∀ k e, F k = some e → placed.lookup e.1.number = numberOf numbers k) :
    v.citations numbers = citations placed v.step := by
  rw [Vertex.citations, citations]
  split
  · rfl
  · refine (mapM_eq_mapM_of_forall₂ ((hF.linked k _ hk).imp fun d j hj => ?_)).symm
    obtain ⟨e, he, rfl⟩ := hj
    have hlookup := hplaced j e he
    cases hnumber : numbers[j]?.join with
    | none | some => simp only [hlookup.trans hnumber]

/-- **The scheduler takes the remaining steps in ascending order.** -/
theorem schedule_eq_layOut {F : Frame} (hF : F.Linked) {rest : List Step} {rounds : Nat}
    {numbers : Array (Option LineNumber)} {vertices : Array Vertex} {ready : Queue}
    {placed : List (LineNumber × LineNumber)} (hrest : rest.Pairwise (·.number < ·.number))
    (hrounds : rest.length ≤ rounds) (h : Standing F numbers vertices ready placed rest)
    (cursor : LineNumber) :
    schedule rounds cursor numbers vertices ready = layOut cursor placed rest := by
  induction rest generalizing rounds numbers vertices ready placed cursor with
  | nil =>
    have hready : ready = [] := List.eq_nil_iff_forall_not_mem.2 fun a ha => by
      obtain ⟨-, u, hu, -⟩ := h.mem_of_ready ha
      cases hu
    rw [hready, schedule, layOut]
  | cons t rest ih =>
    obtain ⟨hlater, htail⟩ := List.pairwise_cons.1 hrest
    obtain _ | rounds := rounds
    · cases hrounds
    obtain ⟨id, ready, v, rfl, hv, rfl⟩ := h.exists_ready hF hlater
    obtain ⟨w, hw, -, -, vertices', ready', hrelease, hframe, hcounted⟩ := h.counted.place
    obtain rfl := Option.some.inj (hv.symm.trans hw)
    rw [schedule, layOut]
    simp only [hv]
    cases v.step.kind.numberAfter? cursor with
    | none => rfl
    | some number =>
      have hnext := h.next hF hlater hv rfl number hframe hcounted
      have hcitations := hF.citations_eq (h.frame_eq ▸ frame_eq_some hv) hnext.placed
      simp only [hcitations, hrelease, bind, Except.bind]
      rw [ih htail (Nat.le_of_succ_le_succ hrounds) hnext]

end Compaction

open Compaction
open Checker (State)

variable {s : State}

theorem Checker.State.Wf.ascending_supporting (hs : s.Wf) (n : LineNumber) :
    (Step.supporting s.accepted n).Pairwise (·.number < ·.number) :=
  (List.pairwise_reverse.2 hs.ascending).filter _

/-- What a step depends on comes before it. -/
theorem Checker.State.Wf.dependencies_supporting (hs : s.Wf) {n : LineNumber} {t : Step}
    (ht : t ∈ Step.supporting s.accepted n) {d : LineNumber} (hd : d ∈ t.dependencies) :
    d < t.number ∧ d ∈ (Step.supporting s.accepted n).map (·.number) := by
  have hmem := @Step.mem_supporting_iff s.accepted n hs.founded
  obtain ⟨ht, hreach⟩ := hmem.1 ht
  obtain ⟨hlt, u, hu, rfl⟩ := (hs.grounded t ht).earlier d hd
  exact ⟨hlt, List.mem_map_of_mem (hmem.2 ⟨hu, hreach.tail ⟨t, ht, rfl, hd⟩⟩)⟩

/-- The vertices of a graph are linked. -/
theorem Compaction.Graph.Wf.linked_frame {g : Graph} {steps : List Step} (hg : g.Wf steps)
    (hsteps : Step.Founded steps) : (frame g.vertices).Linked where
  distinct n j k hj hk := by
    rw [← hg.index] at hj hk
    exact Option.some.inj (hj.symm.trans hk)
  linked := hg.linked
  earlier k e he := hsteps.lt e.1 (hg.known k e he)

/-- At first nothing is placed. -/
theorem standing_graph (hs : s.Wf) (n : LineNumber) :
    Standing (frame (graph s.accepted n).vertices)
      (Array.replicate (graph s.accepted n).vertices.size none) (graph s.accepted n).vertices
      (graph s.accepted n).ready [] (Step.supporting s.accepted n) := by
  have hnone : ∀ size k, numberOf (Array.replicate size none) k = none := by
    intro size k
    rw [numberOf, Array.getElem?_replicate]
    split <;> rfl
  refine ⟨rfl, fun k e he => ?_, ?_, fun k e he => ?_, fun t => ?_⟩
  · rw [Array.size_replicate]
    exact lt_size_of_frame he
  · simp only [hnone]
    exact (wf_graph hs.founded n).counted
  · rw [hnone]; rfl
  · rw [Step.mem_supporting_iff hs.founded, ← Step.mem_reachable_iff hs.founded, Step.mem_reachable]
    simp only [hnone, and_true]

/-- There are vertices enough. -/
theorem length_supporting_le (hs : s.Wf) (n : LineNumber) :
    (Step.supporting s.accepted n).length ≤ (graph s.accepted n).vertices.size := by
  have hnodup : (Step.supporting s.accepted n).Nodup :=
    (hs.ascending_supporting n).imp fun hlt heq => hlt.ne (congrArg _ heq)
  have hsub : Step.supporting s.accepted n ⊆ Step.reachable s.accepted n := fun t ht =>
    (Step.mem_reachable_iff hs.founded).2 ((Step.mem_supporting_iff hs.founded).1 ht)
  have hle := (hnodup.subperm hsub).length_le
  rwa [Step.reachable, List.length_map, Array.length_toList] at hle

/-- **The compacted proof of a line lays out the lines that it rests on, in the
    order of the proof.** -/
theorem compact_eq_layOut (hs : s.Wf) (n : LineNumber) :
    compact s.accepted n = layOut .zero [] (Step.supporting s.accepted n) :=
  schedule_eq_layOut ((wf_graph hs.founded n).linked_frame hs.founded) (hs.ascending_supporting n)
    (length_supporting_le hs n) (standing_graph hs n) .zero

end Deduction
