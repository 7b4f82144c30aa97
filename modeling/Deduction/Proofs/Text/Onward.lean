/-
  Scanners go onward.

  Whether a scanner returns a value or stops, what it leaves unread is an end of
  the text that it was given (`Onward`).  The ways to combine scanners keep this:
  alternatives and repetitions go back to where they started, never before it.
-/
import Deduction.Proofs.Text.Scanner

namespace Deduction.Text

/-- What a scanner leaves unread: the rest behind the value, or the rest at which
    it stopped. -/
def unread {α : Type} : Except Stop (α × List Char) → List Char
  | .ok (_, rest) => rest
  | .error s => s.rest

theorem trimStart_suffix (cs : List Char) : trimStart cs <:+ cs := List.dropWhile_suffix _

namespace Scanner

variable {α β : Type} {p q : Scanner α} {cs rest : List Char} {a : α} {s : Stop}

/-- Whatever the scanner is given, it leaves an end of it unread. -/
def Onward (p : Scanner α) : Prop := ∀ cs, unread (p cs) <:+ cs

theorem Onward.of_ok (hp : Onward p) (h : p cs = .ok (a, rest)) : rest <:+ cs := by
  have hcs := hp cs
  rwa [h] at hcs

theorem Onward.of_error (hp : Onward p) (h : p cs = .error s) : s.rest <:+ cs := by
  have hcs := hp cs
  rwa [h] at hcs

/-! ## One after another -/

theorem onward_pure (a : α) : Onward (pure a : Scanner α) := fun _ => List.suffix_rfl

theorem onward_stop (kind : StopKind) : Onward (stop kind : Scanner α) := fun _ => List.suffix_rfl

theorem bind_of_error (f : α → Scanner β) (h : p cs = .error s) : (p >>= f) cs = .error s := by
  change (p cs >>= fun r => f r.1 r.2) = _
  rw [h]; rfl

theorem onward_bind {f : α → Scanner β} (hp : Onward p) (hf : ∀ a, Onward (f a)) :
    Onward (p >>= f) := by
  intro cs
  rcases h : p cs with s | ⟨a, mid⟩
  · rw [bind_of_error f h]
    exact hp.of_error h
  · rw [bind_of_ok f h]
    exact (hf a mid).trans (hp.of_ok h)

theorem onward_map (f : α → β) (hp : Onward p) : Onward (f <$> p) := by
  rw [map_eq_pure_bind]
  exact onward_bind hp fun a => onward_pure (f a)

theorem onward_seqRight {r : Scanner β} (hp : Onward p) (hr : Onward r) : Onward (p *> r) := by
  rw [seqRight_eq_bind]
  exact onward_bind hp fun _ => hr

/-! ## Alternatives -/

theorem onward_orElse (hp : Onward p) (hq : Onward q) : Onward (orElse p q) := by
  intro cs
  rw [orElse]
  rcases h : p cs with ⟨kind, mid⟩ | ⟨a, mid⟩
  · cases kind with
    | mismatch => exact hq cs
    | tooDeep => exact hp.of_error h
  · exact hp.of_ok h

theorem onward_optional (hp : Onward p) : Onward (optional p) := by
  intro cs
  rw [optional]
  rcases h : p cs with ⟨kind, mid⟩ | ⟨a, mid⟩
  · cases kind with
    | mismatch => exact List.suffix_rfl
    | tooDeep => exact hp.of_error h
  · exact hp.of_ok h

/-! ## Repetition -/

theorem onward_manyUpTo (hp : Onward p) (rounds : Nat) : Onward (manyUpTo p rounds) := by
  induction rounds with
  | zero => exact onward_pure []
  | succ rounds ih =>
    refine onward_bind (onward_optional hp) fun o => ?_
    cases o with
    | none => exact onward_pure []
    | some a => exact onward_bind ih fun as => onward_pure (a :: as)

theorem onward_many (hp : Onward p) : Onward (many p) := fun cs => onward_manyUpTo hp cs.length cs

theorem onward_many1 (hp : Onward p) : Onward (many1 p) :=
  onward_bind hp fun a => onward_bind (onward_many hp) fun as => onward_pure (a :: as)

theorem onward_separated {sep : Scanner β} (hsep : Onward sep) (hp : Onward p) :
    Onward (separated sep p) :=
  onward_bind hp fun a =>
    onward_bind (onward_many (onward_seqRight hsep hp)) fun as => onward_pure (a :: as)

/-! ## Words and blanks -/

theorem onward_takeWhile1 (k : Char → Bool) : Onward (takeWhile1 k) := by
  intro cs
  rw [takeWhile1]
  split
  · exact onward_stop .mismatch cs
  · exact List.dropWhile_suffix k

theorem onward_blanks : Onward blanks := fun _ => List.dropWhile_suffix _

theorem onward_blanks1 : Onward blanks1 :=
  onward_bind (onward_takeWhile1 _) fun _ => onward_pure ()

theorem onward_token (hp : Onward p) : Onward (token p) := onward_bind onward_blanks fun _ => hp

theorem suffix_of_dropBeginning? {same : Char → Char → Bool} {w : List Char}
    (h : dropBeginning? same w cs = some rest) : rest <:+ cs := by
  induction w generalizing cs with
  | nil => exact (Option.some.inj h) ▸ List.suffix_rfl
  | cons a w ih =>
    cases cs with
    | nil => cases h
    | cons c cs =>
      rw [dropBeginning?, Option.ite_none_right_eq_some] at h
      exact (ih h.2).trans (List.suffix_cons c cs)

theorem onward_word (w : String) : Onward (word w) := by
  intro cs
  rw [word]
  cases h : dropBeginning? (fun a c => decide (a = c)) w.toList cs with
  | none => exact List.suffix_rfl
  | some rest => exact suffix_of_dropBeginning? h

theorem onward_oneOf (ws : List String) : Onward (oneOf ws) := by
  induction ws with
  | nil => exact onward_stop .mismatch
  | cons w ws ih => exact onward_orElse (onward_seqRight (onward_word w) (onward_pure w)) ih

theorem onward_toEnd (hp : Onward p) : Onward (toEnd p) := by
  refine onward_bind hp fun a => onward_bind onward_blanks fun _ => ?_
  intro cs
  cases cs with
  | nil => exact List.suffix_rfl
  | cons c cs => exact List.suffix_rfl

end Scanner

end Deduction.Text
