/-
  Hierarchical line numbers.

  A line number such as `2.1.4` is a path: the line stands in slot `4` of a
  block, which fills slot `1` of its parent block, which fills slot `2` of the
  outermost one.  A sub-proof in slot `s` holds the numbers that continue `s`,
  and `s` itself is reserved for the line that closes it.

  * `next?`, `open?` and `close`: the number of the following line in the same
    block, in a new sub-proof, and after the end of the current one;
  * `hasAccess`: which lines a line may cite;
  * `compare`: lines in the order of a proof, in which a sub-proof precedes the
    line that closes it.
-/

namespace Deduction

/-- A line number: the slot of a line in its block and, innermost first, the
    slots that the enclosing blocks fill. -/
structure LineNumber where
  slot : Nat
  enclosing : List Nat
  deriving DecidableEq

namespace LineNumber

/-- The last slot of a block. -/
def maxSlot : Nat := 4294967295

/-- The position before the first line of a proof. -/
def zero : LineNumber := ⟨0, []⟩

/-- The components, innermost first. -/
def inward (n : LineNumber) : List Nat := n.slot :: n.enclosing

/-- The components as they are written, outermost first. -/
def path (n : LineNumber) : List Nat := n.inward.reverse

/-- The line number with the given components, outermost first; there has to
    be at least one. -/
def ofPath? (components : List Nat) : Option LineNumber :=
  match components.reverse with
  | [] => none
  | slot :: enclosing => some ⟨slot, enclosing⟩

/-- Nesting depth: the number of components. -/
def levels (n : LineNumber) : Nat := n.enclosing.length + 1

/-- The next slot of the same block, if there is one. -/
def next? (n : LineNumber) : Option LineNumber :=
  if n.slot < maxSlot then some { n with slot := n.slot + 1 } else none

/-- The first slot of a sub-proof in the next slot: `2` is followed by `3.1`. -/
def open? (n : LineNumber) : Option LineNumber :=
  n.next?.map fun m => ⟨1, m.inward⟩

/-- The slot reserved for closing the current sub-proof: `3.4` is followed by
    `3`.  The outermost block has none, and the number stays as it is. -/
def close (n : LineNumber) : LineNumber :=
  match n.enclosing with
  | [] => n
  | slot :: enclosing => ⟨slot, enclosing⟩

/-- Whether the slot of `m` lies earlier in its block than a path that goes
    through that block, where the path is given innermost first. -/
def isEarlierOn (m : LineNumber) : List Nat → Bool
  | [] => false
  | slot :: enclosing =>
    (enclosing = m.enclosing && m.slot < slot) || m.isEarlierOn enclosing

/-- Whether the line `n` may cite the line `m`: the block of `m` is that of `n`
    or encloses it, and `m` stands in an earlier slot of that block than the
    one where `n` is. -/
def hasAccess (n m : LineNumber) : Bool := m.isEarlierOn n.inward

/-- Compares two paths by their first difference; a path comes before each of
    its own beginnings. -/
def comparePath : List Nat → List Nat → Ordering
  | [], [] => .eq
  | [], _ :: _ => .gt
  | _ :: _, [] => .lt
  | a :: as, b :: bs => (Ord.compare a b).then (comparePath as bs)

/-- The order of the lines of a proof. -/
def compare (n m : LineNumber) : Ordering := comparePath n.path m.path

instance : Ord LineNumber := ⟨compare⟩

/-- Whether `n` does not come after `m`. -/
def le (n m : LineNumber) : Bool := (compare n m).isLE

/-- Line numbers in ascending order; equal ones keep their places. -/
def sort (ns : List LineNumber) : List LineNumber := ns.mergeSort le

/-- The dotted form. -/
def text (n : LineNumber) : String := ".".intercalate (n.path.map toString)

instance : ToString LineNumber := ⟨text⟩

end LineNumber

end Deduction
