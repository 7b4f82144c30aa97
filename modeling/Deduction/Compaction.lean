/-
  Compaction of a checked proof.

  Only the steps that the conclusion depends on are kept.  They are scheduled
  in dependency order, of the ready ones always the one with the least number,
  and renumbered by the same rules that the checker enforces.

  * `Graph.visit`: makes a vertex for a step, behind those of its dependencies.
    A step that has a vertex is not visited again;
  * `schedule`: places the ready vertices.  Each vertex counts the dependencies
    that block it, and `release` counts them down;
  * `compact`: the lines of the compacted proof.
-/
import Deduction.Step

namespace Deduction

/-- Why steps could not be scheduled. -/
inductive CompactionError where
  /-- The step was scheduled before one of its dependencies. -/
  | unplacedDependency (n : LineNumber)
  /-- The block has no slot left. -/
  | numbersExhausted
  /-- A vertex is missing, has been counted down below zero, or was placed
      twice. -/
  | miscounted
  deriving DecidableEq

namespace Compaction

/-! ## The step graph -/

/-- A step and its edges to other vertices, which are given by their places. -/
structure Vertex where
  step : Step
  /-- The vertices of the dependencies, repeated ones included. -/
  dependencies : List Nat
  /-- How many dependencies have not been placed, repeated ones counted each
      time. -/
  blocking : Nat
  /-- The vertices that wait for this one, once for each time that they depend
      on it. -/
  unblocks : List Nat
  deriving DecidableEq

/-- The vertices that wait for nothing, each with the number of its step: the
    one with the least number comes first, and of several the one that was made
    first. -/
abbrev Queue := List (LineNumber × Nat)

/-- Puts a vertex into the queue. -/
def enqueue (a : LineNumber × Nat) : Queue → Queue
  | [] => [a]
  | b :: ready =>
    if ((a.1.compare b.1).then (compare a.2 b.2)).isLE then a :: b :: ready
    else b :: enqueue a ready

/-- The vertices of the steps that have been visited, with their places by the
    numbers of the steps, and those of them that are ready. -/
structure Graph where
  vertices : Array Vertex
  index : List (LineNumber × Nat)
  ready : Queue

namespace Graph

def empty : Graph := ⟨#[], [], []⟩

/-- Makes a vertex for a step, given those of its dependencies. -/
def add (g : Graph) (s : Step) (dependencies : List Nat) : Graph :=
  let id := g.vertices.size
  let vertices := dependencies.foldl
    (fun vertices d => vertices.modify d fun v => { v with unblocks := v.unblocks ++ [id] })
    g.vertices
  let blocking := dependencies.length
  { vertices := vertices.push ⟨s, dependencies, blocking, []⟩
    index := (s.number, id) :: g.index
    ready := if blocking = 0 then enqueue (s.number, id) g.ready else g.ready }

/-- Visits steps one after another, and collects the places of their vertices. -/
def visitEach (visit : LineNumber → Graph → Graph × Option Nat) :
    List LineNumber → Graph → Graph × List Nat
  | [], g => (g, [])
  | n :: ns, g =>
    let (g, id) := visit n g
    let (g, ids) := visitEach visit ns g
    (g, id.toList ++ ids)

/-- The place of the vertex of the step numbered `n`, which is made, along with
    those of its dependencies, unless there is one.  The steps are listed latest
    first, so what a step depends on stands behind it. -/
def visit : List Step → LineNumber → Graph → Graph × Option Nat
  | [], _, g => (g, none)
  | s :: earlier, n, g =>
    if s.number = n then
      match g.index.lookup n with
      | some id => (g, some id)
      | none =>
        let (g, dependencies) := visitEach (visit earlier) s.dependencies g
        (g.add s dependencies, some g.vertices.size)
    else visit earlier n g

end Graph

/-- The vertices of the step numbered `n` and of all that it depends on. -/
def graph (steps : List Step) (n : LineNumber) : Graph := (Graph.visit steps n .empty).1

/-! ## The scheduler -/

/-- The new numbers of the dependencies of a step.  A closing line cites
    nothing. -/
def Vertex.citations (v : Vertex) (numbers : Array (Option LineNumber)) :
    Except CompactionError (List LineNumber) :=
  if v.step.kind = .directProof then .ok []
  else v.dependencies.mapM fun d =>
    match numbers[d]?.join with
    | some n => .ok n
    | none => .error (.unplacedDependency v.step.number)

/-- Counts down the given vertices, each as often as it is listed, and puts those
    that come to zero into the queue. -/
def release : List Nat → Array Vertex → Queue → Except CompactionError (Array Vertex × Queue)
  | [], vertices, ready => .ok (vertices, ready)
  | next :: rest, vertices, ready =>
    match vertices[next]? with
    | some ⟨s, dependencies, blocking + 1, unblocks⟩ =>
      release rest (vertices.setIfInBounds next ⟨s, dependencies, blocking, unblocks⟩)
        (if blocking = 0 then enqueue (s.number, next) ready else ready)
    | _ => .error .miscounted

/-- Places the first of the ready vertices behind the line `cursor`, then the
    others.  `numbers` are the new numbers of the placed vertices.  Each round
    places a vertex, so there are as many rounds as vertices. -/
def schedule : (rounds : Nat) → (cursor : LineNumber) → (numbers : Array (Option LineNumber)) →
    (vertices : Array Vertex) → (ready : Queue) → Except CompactionError (List Line)
  | _, _, _, _, [] => .ok []
  | 0, _, _, _, _ :: _ => .error .miscounted
  | rounds + 1, cursor, numbers, vertices, (_, id) :: ready =>
    match vertices[id]? with
    | none => .error .miscounted
    | some v =>
      match v.step.kind.numberAfter? cursor with
      | none => .error .numbersExhausted
      | some number => do
        let numbers := numbers.setIfInBounds id (some number)
        let refs ← v.citations numbers
        let (vertices, ready) ←
          release v.unblocks (vertices.setIfInBounds id { v with unblocks := [] }) ready
        let lines ← schedule rounds number numbers vertices ready
        return ⟨number, v.step.formula, ⟨v.step.rule, refs⟩⟩ :: lines

/-- Schedules the vertices of a graph from the beginning. -/
def Graph.schedule (g : Graph) : Except CompactionError (List Line) :=
  let size := g.vertices.size
  Compaction.schedule size .zero (Array.replicate size none) g.vertices g.ready

end Compaction

/-- The lines of the compacted proof of the step numbered `n`. -/
def compact (steps : List Step) (n : LineNumber) : Except CompactionError (List Line) :=
  (Compaction.graph steps n).schedule

end Deduction
