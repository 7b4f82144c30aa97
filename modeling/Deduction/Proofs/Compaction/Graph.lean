/-
  The graph of the steps that a step depends on.

  Each vertex keeps its edges twice: those to its dependencies, and, at the other
  end, those to the vertices that it unblocks.  A step may depend on a line more
  than once, and then there are as many edges.

  * `Counted`: the edges are kept alike at both ends; a vertex counts those to
    vertices that are not placed, and the ready vertices are those that count
    none;
  * `Graph.Wf`: what holds of a graph while it is made, and `Graph.Wf.add`: what
    another vertex preserves;
  * `Graph.visited_visit`: a visit makes vertices for the step and for all that it
    depends on, for each step one, and for no other step.
-/
import Deduction.Compaction
import Deduction.Proofs.Checker.Invariant
import Mathlib.Logic.Relation

namespace Deduction

/-! ## Dependencies -/

namespace Step

/-- The line `n` cites the line `d`. -/
def Depends (steps : List Step) (n d : LineNumber) : Prop :=
  ∃ t ∈ steps, t.number = n ∧ d ∈ t.dependencies

/-- The line `n` rests on the line `d`, directly or through other lines. -/
def Reaches (steps : List Step) : LineNumber → LineNumber → Prop :=
  Relation.ReflTransGen (Depends steps)

section
variable {steps : List Step} (hearlier : ∀ t ∈ steps, ∀ d ∈ t.dependencies, d < t.number)
  {n m : LineNumber}
include hearlier

theorem lt_of_transGen_depends (h : Relation.TransGen (Depends steps) n m) : m < n := by
  induction h with
  | single hdep =>
    obtain ⟨t, ht, rfl, hd⟩ := hdep
    exact hearlier t ht _ hd
  | tail _ hdep ih =>
    obtain ⟨t, ht, rfl, hd⟩ := hdep
    exact (hearlier t ht _ hd).trans ih

theorem le_of_reaches (h : Reaches steps n m) : m ≤ n := by
  rcases Relation.reflTransGen_iff_eq_or_transGen.1 h with rfl | h
  · exact le_rfl
  · exact (lt_of_transGen_depends hearlier h).le

end

/-- The steps come in the order of their numbers, latest first, and depend on
    earlier ones. -/
structure Founded (steps : List Step) : Prop where
  ascending : steps.Pairwise fun t u => u.number < t.number
  earlier : ∀ t ∈ steps, ∀ d ∈ t.dependencies, d < t.number ∧ ∃ u ∈ steps, u.number = d

namespace Founded

variable {s t u : Step} {steps earlier : List Step}

theorem tail (h : Founded (s :: earlier)) : Founded earlier where
  ascending := (List.pairwise_cons.1 h.ascending).2
  earlier t ht d hd := by
    obtain ⟨hlt, u, hu, hnumber⟩ := h.earlier t (List.mem_cons_of_mem _ ht) d hd
    refine ⟨hlt, u, (List.mem_cons.1 hu).resolve_left ?_, hnumber⟩
    rintro rfl
    exact absurd ((List.pairwise_cons.1 h.ascending).1 t ht) (hnumber ▸ hlt).not_gt

/-- What a step depends on stands behind it. -/
theorem exists_mem (h : Founded (s :: earlier)) {d : LineNumber} (hd : d ∈ s.dependencies) :
    ∃ u ∈ earlier, u.number = d := by
  obtain ⟨hlt, u, hu, hnumber⟩ := h.earlier s List.mem_cons_self d hd
  refine ⟨u, (List.mem_cons.1 hu).resolve_left ?_, hnumber⟩
  rintro rfl
  exact hlt.ne' hnumber

theorem lt (h : Founded steps) (t : Step) (ht : t ∈ steps) (d : LineNumber)
    (hd : d ∈ t.dependencies) : d < t.number :=
  (h.earlier t ht d hd).1

theorem find?_eq_some (h : Founded steps) (ht : t ∈ steps) : find? steps t.number = some t :=
  Step.find?_eq_some h.ascending ht

/-- Different steps have different numbers. -/
theorem eq_of_number_eq (h : Founded steps) (ht : t ∈ steps) (hu : u ∈ steps)
    (hnumber : t.number = u.number) : t = u := by
  have hfind := h.find?_eq_some ht
  rw [hnumber, h.find?_eq_some hu] at hfind
  exact (Option.some.inj hfind).symm

end Founded

end Step

namespace Compaction

/-! ## The queue -/

section
variable {a : LineNumber × Nat} {ready : Queue}

theorem enqueue_perm (a : LineNumber × Nat) (ready : Queue) :
    (enqueue a ready).Perm (a :: ready) := by
  induction ready with
  | nil => exact .rfl
  | cons b ready ih =>
    rw [enqueue]
    split
    · exact .rfl
    · exact (ih.cons b).trans (.swap a b ready)

theorem enqueue_sorted (h : ready.Pairwise (·.1 ≤ ·.1)) :
    (enqueue a ready).Pairwise (·.1 ≤ ·.1) := by
  induction h with
  | nil => simp [enqueue]
  | @cons b ready hb hready ih =>
    rw [enqueue]
    split
    · rename_i hle
      have hab : a.1 ≤ b.1 := (Ordering.isLE_then_iff_and.1 hle).1
      refine List.pairwise_cons.2 ⟨fun c hc => ?_, List.pairwise_cons.2 ⟨hb, hready⟩⟩
      rcases List.mem_cons.1 hc with rfl | hc
      · exact hab
      · exact hab.trans (hb c hc)
    · rename_i hle
      have hba : b.1 ≤ a.1 := by
        refine (le_total b.1 a.1).elim id fun hab => ?_
        rcases hab.eq_or_lt with heq | hlt
        · exact heq.ge
        · exact absurd (Ordering.isLE_then_iff_and.2 ⟨hlt.le, .inl hlt⟩) hle
      refine List.pairwise_cons.2 ⟨fun c hc => ?_, ih⟩
      rcases List.mem_cons.1 ((enqueue_perm a ready).mem_iff.1 hc) with rfl | hc
      · exact hba
      · exact hb c hc

/-- The queue lists what has the property `R`, each vertex once. -/
structure Lists (ready : Queue) (R : LineNumber × Nat → Prop) : Prop where
  sorted : ready.Pairwise (·.1 ≤ ·.1)
  nodup : ready.Nodup
  mem_iff : ∀ b, b ∈ ready ↔ R b

namespace Lists

variable {R R' : LineNumber × Nat → Prop}

theorem congr (h : Lists ready R) (hiff : ∀ b, R' b ↔ R b) : Lists ready R' where
  sorted := h.sorted
  nodup := h.nodup
  mem_iff b := by rw [hiff, h.mem_iff]

/-- The vertex `a` comes into the queue if nothing blocks it. -/
theorem enqueue_of_ready {blocking : Nat} (h : Lists ready R) (hnew : ¬ R a)
    (hiff : ∀ b, R' b ↔ (b = a ∧ blocking = 0) ∨ R b) :
    Lists (if blocking = 0 then enqueue a ready else ready) R' := by
  split
  · rename_i hblocking
    have hperm := enqueue_perm a ready
    refine ⟨enqueue_sorted h.sorted, ?_, fun b => ?_⟩
    · rw [hperm.nodup_iff, List.nodup_cons, h.mem_iff]
      exact ⟨hnew, h.nodup⟩
    · rw [hperm.mem_iff, List.mem_cons, h.mem_iff, hiff, and_iff_left hblocking]
  · rename_i hblocking
    refine ⟨h.sorted, h.nodup, fun b => ?_⟩
    rw [h.mem_iff, hiff, or_iff_right fun h => hblocking h.2]

theorem tail (h : Lists (a :: ready) R) : Lists ready fun b => R b ∧ b ≠ a where
  sorted := (List.pairwise_cons.1 h.sorted).2
  nodup := (List.nodup_cons.1 h.nodup).2
  mem_iff b := by
    rw [← h.mem_iff, List.mem_cons]
    constructor
    · intro hb
      exact ⟨.inr hb, fun heq => (List.nodup_cons.1 h.nodup).1 (heq ▸ hb)⟩
    · rintro ⟨heq | hb, hne⟩
      · exact absurd heq hne
      · exact hb

end Lists

end

/-! ## Edges -/

/-- What stands at each place: a step and the places of its dependencies.  The
    scheduler leaves this as it is. -/
abbrev Frame := Nat → Option (Step × List Nat)

/-- The step and the dependencies of each vertex. -/
def frame (vertices : Array Vertex) : Frame :=
  fun k => vertices[k]?.map fun v => (v.step, v.dependencies)

/-- The step numbered `n` stands at the place `k`. -/
def Frame.At (F : Frame) (n : LineNumber) (k : Nat) : Prop := ∃ e, F k = some e ∧ e.1.number = n

/-- What stands somewhere stays there. -/
def Frame.Grows (F F' : Frame) : Prop := ∀ k e, F k = some e → F' k = some e

theorem Frame.Grows.refl (F : Frame) : F.Grows F := fun _ _ h => h

theorem Frame.Grows.trans {F F' F'' : Frame} (h : F.Grows F') (h' : F'.Grows F'') : F.Grows F'' :=
  fun k e he => h' k e (h k e he)

theorem Frame.At.mono {F F' : Frame} {n : LineNumber} {k : Nat} (h : F.At n k)
    (hgrows : F.Grows F') : F'.At n k := by
  obtain ⟨e, he, hn⟩ := h
  exact ⟨e, hgrows k e he, hn⟩

/-- How often the vertex `k` depends on the vertex `d`. -/
def Frame.edges (F : Frame) (k d : Nat) : Nat := (F k).elim 0 fun e => e.2.count d

theorem frame_eq_some {vertices : Array Vertex} {k : Nat} {v : Vertex}
    (h : vertices[k]? = some v) : frame vertices k = some (v.step, v.dependencies) := by
  rw [frame, h, Option.map_some]

theorem lt_size_of_frame {vertices : Array Vertex} {k : Nat} {e : Step × List Nat}
    (h : frame vertices k = some e) : k < vertices.size := by
  obtain ⟨v, hv, -⟩ := Option.map_eq_some_iff.1 h
  exact (Array.getElem?_eq_some_iff.1 hv).1

/-- A vertex that can be placed next: it is not placed, and nothing blocks it. -/
def IsReady (unplaced : Nat → Bool) (vertices : Array Vertex) (a : LineNumber × Nat) : Prop :=
  ∃ v, vertices[a.2]? = some v ∧ v.step.number = a.1 ∧ unplaced a.2 = true ∧ v.blocking = 0

/-- The counters are right.  The vertices `owed` are still to be counted down, as
    often as they are listed. -/
structure Counted (unplaced : Nat → Bool) (owed : List Nat) (vertices : Array Vertex)
    (ready : Queue) : Prop where
  /-- A vertex is blocked by its dependencies that are not placed, repeated ones
      counted each time. -/
  blocking : ∀ k v, vertices[k]? = some v →
    v.blocking = v.dependencies.countP unplaced + owed.count k
  /-- The edges are kept alike at both ends. -/
  unblocks : ∀ d v, vertices[d]? = some v → unplaced d = true →
    ∀ k, v.unblocks.count k = (frame vertices).edges k d
  /-- What has been placed depends on what has been placed. -/
  closed : ∀ k e, frame vertices k = some e → unplaced k = false →
    ∀ d ∈ e.2, unplaced d = false
  queue : Lists ready (IsReady unplaced vertices)

/-! ## Making the graph -/

namespace Graph

variable {g g' : Graph} {s : Step} {steps earlier : List Step} {n : LineNumber}
  {ids : List Nat} {k : Nat}

/-- What holds of a graph while it is made of some of the given steps. -/
structure Wf (steps : List Step) (g : Graph) : Prop where
  index : ∀ n k, g.index.lookup n = some k ↔ (frame g.vertices).At n k
  known : ∀ k e, frame g.vertices k = some e → e.1 ∈ steps
  linked : ∀ k e, frame g.vertices k = some e →
    List.Forall₂ (frame g.vertices).At e.1.dependencies e.2
  counted : Counted (fun _ => true) [] g.vertices g.ready

theorem Wf.empty (steps : List Step) : Wf steps .empty where
  index n k := by simp [Graph.empty, Frame.At, frame]
  known k e h := by simp [Graph.empty, frame] at h
  linked k e h := by simp [Graph.empty, frame] at h
  counted := {
    blocking := by simp [Graph.empty]
    unblocks := by simp [Graph.empty]
    closed := by simp [Graph.empty, frame]
    queue := ⟨.nil, List.nodup_nil, by simp [Graph.empty, IsReady]⟩ }

/-- Telling dependencies about a new vertex adds the edges at their ends. -/
theorem getElem?_foldl_modify (id : Nat) (ids : List Nat) (vertices : Array Vertex) (k : Nat) :
    (ids.foldl (fun vertices d => vertices.modify d fun v =>
      { v with unblocks := v.unblocks ++ [id] }) vertices)[k]? =
      vertices[k]?.map fun v => { v with unblocks := v.unblocks ++ List.replicate (ids.count k) id } := by
  induction ids generalizing vertices with
  | nil => simp
  | cons d ids ih =>
    rw [List.foldl_cons, ih, Array.getElem?_modify]
    by_cases hd : d = k
    · subst hd
      simp [List.replicate_succ, Function.comp_def]
    · simp [hd]

theorem index_add (g : Graph) (s : Step) (ids : List Nat) :
    (g.add s ids).index = (s.number, g.vertices.size) :: g.index := rfl

theorem ready_add (g : Graph) (s : Step) (ids : List Nat) : (g.add s ids).ready =
    if ids.length = 0 then enqueue (s.number, g.vertices.size) g.ready else g.ready := rfl

theorem getElem?_add (g : Graph) (s : Step) (ids : List Nat) (k : Nat) :
    (g.add s ids).vertices[k]? = if k = g.vertices.size then some ⟨s, ids, ids.length, []⟩ else
      g.vertices[k]?.map fun v =>
        { v with unblocks := v.unblocks ++ List.replicate (ids.count k) g.vertices.size } := by
  have hsize : ∀ (ids : List Nat) (vertices : Array Vertex), (ids.foldl (fun vertices d =>
      vertices.modify d fun v => { v with unblocks := v.unblocks ++ [g.vertices.size] })
        vertices).size = vertices.size := by
    intro ids
    induction ids with
    | nil => simp
    | cons d ids ih => simp [ih]
  simp only [add, Array.getElem?_push, hsize, getElem?_foldl_modify]

theorem frame_add (g : Graph) (s : Step) (ids : List Nat) (k : Nat) :
    frame (g.add s ids).vertices k =
      if k = g.vertices.size then some (s, ids) else frame g.vertices k := by
  rw [frame, getElem?_add]
  split
  · rfl
  · simp [frame, Function.comp_def]

/-- Another vertex leaves the others where they are. -/
theorem grows_add (g : Graph) (s : Step) (ids : List Nat) :
    (frame g.vertices).Grows (frame (g.add s ids).vertices) := by
  intro k e he
  rw [frame_add, if_neg (lt_size_of_frame he).ne, he]

theorem frame_size (vertices : Array Vertex) : frame vertices vertices.size = none := by
  simp [frame]

theorem at_add : (frame (g.add s ids).vertices).At n k ↔
    (n = s.number ∧ k = g.vertices.size) ∨ (frame g.vertices).At n k := by
  rw [Frame.At, frame_add]
  by_cases hk : k = g.vertices.size
  · rw [if_pos hk]
    constructor
    · rintro ⟨e, he, rfl⟩
      obtain rfl := Option.some.inj he
      exact .inl ⟨rfl, hk⟩
    · rintro (⟨rfl, -⟩ | ⟨e, he, -⟩)
      · exact ⟨_, rfl, rfl⟩
      · rw [hk, frame_size] at he; cases he
  · rw [if_neg hk]
    exact (or_iff_right fun h => hk h.2).symm

/-- A new vertex is ready if it has no dependencies. -/
theorem isReady_add (a : LineNumber × Nat) :
    IsReady (fun _ => true) (g.add s ids).vertices a ↔
      (a = (s.number, g.vertices.size) ∧ ids.length = 0) ∨
        IsReady (fun _ => true) g.vertices a := by
  obtain ⟨n, k⟩ := a
  simp only [IsReady, getElem?_add]
  by_cases hk : k = g.vertices.size
  · subst hk
    simp [eq_comm]
  · simp [hk]

/-- No vertex depends on a place that has not been taken. -/
theorem notMem_size {ns : List LineNumber} (h : List.Forall₂ (frame g.vertices).At ns ids) :
    g.vertices.size ∉ ids := by
  intro hmem
  obtain ⟨n, -, e, he, -⟩ := exists_of_forall₂ h.flip hmem
  exact absurd (lt_size_of_frame he) (lt_irrefl _)

theorem counted_add (h : Counted (fun _ => true) [] g.vertices g.ready)
    (hlinked : ∀ k e, frame g.vertices k = some e → g.vertices.size ∉ e.2)
    (hids : g.vertices.size ∉ ids) :
    Counted (fun _ => true) [] (g.add s ids).vertices (g.add s ids).ready where
  blocking k v hv := by
    rw [getElem?_add] at hv
    split at hv
    · obtain rfl := Option.some.inj hv
      simp
    · obtain ⟨w, hw, rfl⟩ := Option.map_eq_some_iff.1 hv
      exact h.blocking k w hw
  unblocks d v hv _ k := by
    rw [getElem?_add] at hv
    rw [Frame.edges, frame_add]
    split at hv
    · -- nothing depends on the new vertex
      rename_i hd
      obtain rfl := Option.some.inj hv
      rw [List.count_nil, hd]
      split
      · exact (List.count_eq_zero.2 hids).symm
      · cases he : frame g.vertices k with
        | none => rfl
        | some e => exact (List.count_eq_zero.2 (hlinked k e he)).symm
    · obtain ⟨w, hw, rfl⟩ := Option.map_eq_some_iff.1 hv
      have hcount := h.unblocks d w hw rfl k
      rw [Frame.edges] at hcount
      rw [List.count_append, List.count_replicate, hcount]
      by_cases hk : k = g.vertices.size
      · simp [hk, frame_size]
      · simp [hk, Ne.symm hk]
  closed k v _ hk := by cases hk
  queue := by
    have hnew : ¬ IsReady (fun _ => true) g.vertices (s.number, g.vertices.size) := by
      simp [IsReady]
    rw [ready_add]
    exact h.queue.enqueue_of_ready hnew isReady_add

/-- **What another vertex preserves.** -/
theorem Wf.add (h : g.Wf steps) (hs : s ∈ steps) (hnew : g.index.lookup s.number = none)
    (hids : List.Forall₂ (frame g.vertices).At s.dependencies ids) : (g.add s ids).Wf steps where
  index n k := by
    rw [index_add, List.lookup_cons, at_add, ← h.index]
    by_cases hn : n = s.number
    · simp [hn, hnew, eq_comm]
    · have hbeq : (n == s.number) = false := by simpa using hn
      simp [hn, hbeq]
  known k e he := by
    rw [frame_add] at he
    split at he
    · obtain rfl := Option.some.inj he
      exact hs
    · exact h.known k e he
  linked k e he := by
    have hgrows : ∀ n j, (frame g.vertices).At n j → (frame (g.add s ids).vertices).At n j :=
      fun n j hat => at_add.2 (.inr hat)
    rw [frame_add] at he
    split at he
    · obtain rfl := Option.some.inj he
      exact hids.imp hgrows
    · exact (h.linked k e he).imp hgrows
  counted := counted_add h.counted (fun k e he => notMem_size (h.linked k e he)) (notMem_size hids)

/-! ## Visits -/

/-- What a visit of the step numbered `n` leads to: the step has a vertex, and all
    new vertices are those of steps that it rests on. -/
structure Visited (steps : List Step) (n : LineNumber) (g : Graph) (r : Graph × Option Nat) :
    Prop where
  wf : r.1.Wf steps
  grows : (frame g.vertices).Grows (frame r.1.vertices)
  found : ∃ k, r.2 = some k ∧ (frame r.1.vertices).At n k
  reached : ∀ m k, (frame r.1.vertices).At m k →
    (frame g.vertices).At m k ∨ Step.Reaches steps n m

/-- What visits of several steps lead to. -/
structure VisitedAll (steps : List Step) (ns : List LineNumber) (g : Graph)
    (r : Graph × List Nat) : Prop where
  wf : r.1.Wf steps
  grows : (frame g.vertices).Grows (frame r.1.vertices)
  found : List.Forall₂ (frame r.1.vertices).At ns r.2
  reached : ∀ m k, (frame r.1.vertices).At m k →
    (frame g.vertices).At m k ∨ ∃ n ∈ ns, Step.Reaches steps n m

theorem visitEach_cons (visit : LineNumber → Graph → Graph × Option Nat) (n : LineNumber)
    (ns : List LineNumber) (g : Graph) : visitEach visit (n :: ns) g =
      ((visitEach visit ns (visit n g).1).1,
        (visit n g).2.toList ++ (visitEach visit ns (visit n g).1).2) := rfl

theorem visitedAll_visitEach {visit : LineNumber → Graph → Graph × Option Nat}
    {ns : List LineNumber} (hvisit : ∀ n ∈ ns, ∀ g : Graph, g.Wf steps → Visited steps n g (visit n g))
    (h : g.Wf steps) : VisitedAll steps ns g (visitEach visit ns g) := by
  induction ns generalizing g with
  | nil => exact ⟨h, .refl _, .nil, fun m k hk => .inl hk⟩
  | cons n ns ih =>
    obtain ⟨hwf, hgrows, ⟨k, hk, hat⟩, hreached⟩ := hvisit n List.mem_cons_self g h
    obtain ⟨hwf', hgrows', hfound', hreached'⟩ :=
      ih (fun m hm => hvisit m (List.mem_cons_of_mem _ hm)) hwf
    rw [visitEach_cons, hk]
    refine ⟨hwf', hgrows.trans hgrows', .cons (hat.mono hgrows') hfound', fun m j hj => ?_⟩
    rcases hreached' m j hj with hj | ⟨n', hn', hreach⟩
    · rcases hreached m j hj with hj | hreach
      · exact .inl hj
      · exact .inr ⟨n, List.mem_cons_self, hreach⟩
    · exact .inr ⟨n', List.mem_cons_of_mem _ hn', hreach⟩

/-- When its dependencies have been visited, a step that had no vertex gets one. -/
theorem visited_add (hsteps : Step.Founded steps) (hs : s ∈ steps) (h : g.Wf steps)
    (hnew : g.index.lookup s.number = none) (hall : VisitedAll steps s.dependencies g (g', ids)) :
    Visited steps s.number g (g'.add s ids, some g'.vertices.size) := by
  have hreached : ∀ m k, (frame g'.vertices).At m k →
      (frame g.vertices).At m k ∨ Relation.TransGen (Step.Depends steps) s.number m := by
    intro m k hk
    rcases hall.reached m k hk with hk | ⟨d, hd, hreach⟩
    · exact .inl hk
    · exact .inr (.head' ⟨s, hs, rfl, hd⟩ hreach)
  -- a step does not rest on itself, so the visits have not made its vertex
  have hnew' : g'.index.lookup s.number = none := by
    refine Option.eq_none_iff_forall_ne_some.2 fun k hk => ?_
    rcases hreached _ k ((hall.wf.index _ _).1 hk) with hk | hrests
    · rw [(h.index _ _).2 hk] at hnew; cases hnew
    · exact lt_irrefl _ (Step.lt_of_transGen_depends hsteps.lt hrests)
  refine ⟨hall.wf.add hs hnew' hall.found, hall.grows.trans (grows_add g' s ids),
    ⟨_, rfl, at_add.2 (.inl ⟨rfl, rfl⟩)⟩, fun m k hk => ?_⟩
  rcases at_add.1 hk with ⟨rfl, -⟩ | hk
  · exact .inr .refl
  · exact (hreached m k hk).imp id Relation.TransGen.to_reflTransGen

/-- **A visit makes vertices for the step and for all that it rests on.** -/
theorem visited_visit (hsteps : Step.Founded steps) (hearlier : Step.Founded earlier)
    (hsub : earlier ⊆ steps) (hn : ∃ t ∈ earlier, t.number = n) (h : g.Wf steps) :
    Visited steps n g (visit earlier n g) := by
  induction earlier generalizing n g with
  | nil => obtain ⟨t, ht, -⟩ := hn; cases ht
  | cons s earlier ih =>
    obtain ⟨hs, hsub⟩ := List.cons_subset.1 hsub
    rw [visit]
    split
    · rename_i hnumber
      subst hnumber
      split
      · rename_i k hk
        exact ⟨h, .refl _, ⟨k, rfl, (h.index _ _).1 hk⟩, fun m j hj => .inl hj⟩
      · rename_i hnew
        exact visited_add hsteps hs h hnew (visitedAll_visitEach
          (fun d hd g hg => ih hearlier.tail hsub (hearlier.exists_mem hd) hg) h)
    · rename_i hnumber
      obtain ⟨t, ht, rfl⟩ := hn
      refine ih hearlier.tail hsub ⟨t, (List.mem_cons.1 ht).resolve_left ?_, rfl⟩ h
      rintro rfl
      exact hnumber rfl

end Graph

end Compaction

end Deduction
