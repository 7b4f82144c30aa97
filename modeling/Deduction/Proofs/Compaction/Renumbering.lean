/-
  Renumbering what is kept of a proof.

  When only the lines `kept` of a proof remain, each of them moves up to the
  rank that its slot has among the kept slots of its block, and so do the
  blocks around it.

  * `renumber`: the number of a line when only `kept` remains;
  * `hasAccess_renumber`: a kept line still sees the lines that it saw;
  * `shadow`: where the rest of the proof is when the whole proof is at a given
    line.  By `next?_shadow`, `open?_shadow` and `enclosing_shadow` the kept
    lines have their new numbers by the rules of the checker.
-/
import Deduction.Proofs.LineNumber

namespace Deduction.LineNumber

/-- The number of kept lines in the first slots of a block. -/
def rank (kept : List LineNumber) (e : List Nat) : (slots : Nat) → Nat
  | 0 => 0
  | x + 1 => rank kept e x + if ⟨x + 1, e⟩ ∈ kept then 1 else 0

/-- The slots of the blocks around a line, each by its rank. -/
def rerank (kept : List LineNumber) : List Nat → List Nat
  | [] => []
  | x :: e => rank kept e x :: rerank kept e

/-- The number of a line when only `kept` remains. -/
def renumber (kept : List LineNumber) (n : LineNumber) : LineNumber :=
  ⟨rank kept n.enclosing n.slot, rerank kept n.enclosing⟩

/-- All sub-proofs around a kept line are kept: the lines that close them are. -/
def BlocksKept (kept : List LineNumber) : Prop :=
  ∀ n ∈ kept, ∀ m : LineNumber, m.inward <:+ n.enclosing → m ∈ kept

section
variable {kept : List LineNumber} {n m : LineNumber} {e : List Nat} {x y : Nat}

/-! ## Ranks -/

theorem rank_succ_of_mem (h : ⟨x + 1, e⟩ ∈ kept) : rank kept e (x + 1) = rank kept e x + 1 := by
  rw [rank, if_pos h]

theorem rank_succ_of_notMem (h : ⟨x + 1, e⟩ ∉ kept) : rank kept e (x + 1) = rank kept e x := by
  rw [rank, if_neg h, Nat.add_zero]

theorem rank_le (kept : List LineNumber) (e : List Nat) (x : Nat) : rank kept e x ≤ x := by
  induction x with
  | zero => exact le_rfl
  | succ x ih => rw [rank]; split <;> omega

theorem rank_mono (h : x ≤ y) : rank kept e x ≤ rank kept e y := by
  induction h with
  | refl => exact le_rfl
  | step _ ih => exact ih.trans (Nat.le_add_right _ _)

/-- A kept line ranks above all earlier slots. -/
theorem rank_lt_of_mem (h : x < y) (hy : ⟨y, e⟩ ∈ kept) : rank kept e x < rank kept e y := by
  obtain ⟨y, rfl⟩ : ∃ z, y = z + 1 := ⟨y - 1, by omega⟩
  rw [rank_succ_of_mem hy]
  exact Nat.lt_succ_of_le (rank_mono (by omega))

theorem inward_renumber (kept : List LineNumber) (n : LineNumber) :
    (n.renumber kept).inward = rerank kept n.inward := rfl

theorem rerank_suffix {f : List Nat} (h : e <:+ f) : rerank kept e <:+ rerank kept f := by
  obtain ⟨d, rfl⟩ := h
  induction d with
  | nil => exact List.suffix_rfl
  | cons x d ih => exact ih.trans (List.suffix_cons _ _)

/-- A kept line still sees what it saw. -/
theorem hasAccess_renumber (hkept : BlocksKept kept) (hn : n ∈ kept)
    (h : n.hasAccess m = true) : (n.renumber kept).hasAccess (m.renumber kept) = true := by
  obtain ⟨slot, hslot, hlt⟩ := hasAccess_iff.1 h
  -- the slot through which `n` sees `m` is that of `n` or of a sub-proof around it
  have hmem : ⟨slot, m.enclosing⟩ ∈ kept := by
    rcases List.suffix_cons_iff.1 hslot with heq | hsuffix
    · rwa [show (⟨slot, m.enclosing⟩ : LineNumber) = n from inward_injective heq]
    · exact hkept n hn ⟨slot, m.enclosing⟩ hsuffix
  exact hasAccess_iff.2 ⟨rank kept m.enclosing slot, rerank_suffix hslot, rank_lt_of_mem hlt hmem⟩

/-! ## The kept lines in the course of a proof -/

/-- When the whole proof is at the line `n`, what is kept of it is at this line:
    inside of a sub-proof that is not kept, it is where it will be after the
    sub-proof. -/
def shadow (kept : List LineNumber) : LineNumber → LineNumber
  | ⟨x, []⟩ => renumber kept ⟨x, []⟩
  | ⟨x, y :: e⟩ => if ⟨y, e⟩ ∈ kept then renumber kept ⟨x, y :: e⟩ else shadow kept ⟨y, e⟩
termination_by n => n.enclosing.length

theorem shadow_eq_renumber (h : ∀ m : LineNumber, n.enclosing = m.inward → m ∈ kept) :
    n.shadow kept = n.renumber kept := by
  obtain ⟨x, _ | ⟨y, e⟩⟩ := n
  · rw [shadow]
  · rw [shadow, if_pos (h ⟨y, e⟩ rfl)]

theorem shadow_eq_shadow (h : n.enclosing = m.inward) (hm : m ∉ kept) :
    n.shadow kept = m.shadow kept := by
  obtain ⟨x, e⟩ := n
  obtain rfl : e = m.slot :: m.enclosing := h
  rw [shadow, if_neg hm]

theorem shadow_of_mem (hkept : BlocksKept kept) (hn : n ∈ kept) :
    n.shadow kept = n.renumber kept :=
  shadow_eq_renumber fun m hm => hkept n hn m (hm ▸ List.suffix_rfl)

/-- A line that is not kept changes nothing. -/
theorem shadow_succ_of_notMem (h : ⟨x + 1, e⟩ ∉ kept) :
    shadow kept ⟨x + 1, e⟩ = shadow kept ⟨x, e⟩ := by
  have hrenumber : renumber kept ⟨x + 1, e⟩ = renumber kept ⟨x, e⟩ := by
    rw [renumber, renumber, rank_succ_of_notMem h]
  cases e with
  | nil => rw [shadow, shadow, hrenumber]
  | cons y e => rw [shadow, shadow, hrenumber]

/-- Before a kept line, all blocks are kept. -/
theorem shadow_of_succ_mem (hkept : BlocksKept kept) (h : ⟨x + 1, e⟩ ∈ kept) :
    shadow kept ⟨x, e⟩ = renumber kept ⟨x, e⟩ :=
  shadow_eq_renumber fun m hm => hkept _ h m (hm ▸ List.suffix_rfl)

theorem next?_shadow (hkept : BlocksKept kept) (h : n.next? = some m) (hm : m ∈ kept) :
    (n.shadow kept).next? = some (m.renumber kept) := by
  obtain ⟨hslot, rfl⟩ := next?_eq_some.1 h
  rw [shadow_of_succ_mem hkept hm, next?_eq_some]
  refine ⟨(rank_le kept n.enclosing n.slot).trans_lt hslot, ?_⟩
  rw [renumber, renumber, rank_succ_of_mem hm]

/-- The assumption of a kept sub-proof opens it. -/
theorem open?_shadow (hkept : BlocksKept kept) (h : n.open? = some m) (hm : m ∈ kept) :
    (n.shadow kept).open? = some (m.renumber kept) := by
  obtain ⟨hslot, rfl⟩ := open?_eq_some.1 h
  have hclosing : ⟨n.slot + 1, n.enclosing⟩ ∈ kept := hkept _ hm _ List.suffix_rfl
  have hone : rank kept ((n.slot + 1) :: n.enclosing) 1 = 1 := rank_succ_of_mem hm
  rw [shadow_of_succ_mem hkept hclosing, open?_eq_some]
  refine ⟨(rank_le kept n.enclosing n.slot).trans_lt hslot, ?_⟩
  rw [renumber, renumber, hone, rerank, rank_succ_of_mem hclosing]

/-- The closing line of a kept sub-proof closes it. -/
theorem enclosing_shadow (h : n.enclosing = m.inward) (hm : m ∈ kept) :
    (n.shadow kept).enclosing = (m.renumber kept).inward := by
  have hblock : ∀ m' : LineNumber, n.enclosing = m'.inward → m' ∈ kept := by
    intro m' hm'
    rwa [inward_injective (hm'.symm.trans h)]
  rw [shadow_eq_renumber hblock, inward_renumber, ← h]
  rfl

end

end Deduction.LineNumber
