/-
  What a path stands for.

  Two paths are the same if they have the same components, and these decide
  where a path leads.

  * `Path.components`: the root or a first dot, and the names that count;
  * `Path.place`: where the components lead from a directory.  A path that leads
    somewhere in a file tree leads there (`FileTree.eq_place_of_resolve`).

  Main statements: a file in a directory has the components of the directory and
  its name (`components_join`), also after another name has been put in place of
  the first one (`exists_withFileName_eq`).
-/
import Deduction.Files.Tree
import Mathlib.Data.List.Basic
import Mathlib.Data.List.TakeWhile

namespace Deduction

namespace Path

variable {d path name other : String} {cs ds before : List Char}

/-! ## Components -/

/-- Whether a name counts inside a path. -/
def counts (name : String) : Bool := name ≠ "" && name ≠ "."

theorem counts_iff : counts name = true ↔ name ≠ "" ∧ name ≠ "." := by simp [counts]

/-- What a path begins with: the root, which is written as an empty name, or a
    single dot, which counts here. -/
def start (path : String) : List String :=
  if isAbsolute path then [""] else if (names path).head? = some "." then ["."] else []

/-- The components of a path. -/
def components (path : String) : List String := start path ++ (names path).filter counts

theorem names_ne_nil (path : String) : names path ≠ [] := by simp [names, List.splitOn_ne_nil]

theorem names_of_notMem (h : '/' ∉ name.toList) : names name = [name] := by
  have hsplit : name.toList.splitOn '/' = [name.toList] :=
    List.splitOnP_eq_singleton fun c hc => by simpa using ne_of_mem_of_not_mem hc h
  rw [names, hsplit, List.map_singleton, String.ofList_toList]

theorem names_append_slash (cs ds : List Char) :
    names (.ofList (cs ++ '/' :: ds)) = names (.ofList cs) ++ names (.ofList ds) := by
  have hsplit : (cs ++ '/' :: ds).splitOn '/' = cs.splitOn '/' ++ ds.splitOn '/' :=
    List.splitOnP_append_cons cs ds (by decide)
  simp only [names, String.toList_ofList, hsplit, List.map_append]

theorem filter_names_nil : (names (.ofList [])).filter counts = [] := by decide

/-- Behind a slash, the names that count are added. -/
theorem components_append_slash (cs ds : List Char) :
    components (.ofList (cs ++ '/' :: ds)) =
      components (.ofList (cs ++ ['/'])) ++ (names (.ofList ds)).filter counts := by
  have hstart : start (.ofList (cs ++ '/' :: ds)) = start (.ofList (cs ++ ['/'])) := by
    have hhead : (cs ++ '/' :: ds).head? = (cs ++ ['/']).head? := by cases cs <;> rfl
    simp only [start, isAbsolute, String.toList_ofList, hhead, names_append_slash,
      List.head?_append_of_ne_nil _ (names_ne_nil (.ofList cs))]
  rw [components, components, hstart, names_append_slash, names_append_slash, List.filter_append,
    List.filter_append, filter_names_nil, List.append_nil, List.append_assoc]

/-- A slash at the end counts for nothing, unless it is the root. -/
theorem components_concat_slash (h : cs ≠ []) :
    components (.ofList (cs ++ ['/'])) = components (.ofList cs) := by
  have hstart : start (.ofList (cs ++ ['/'])) = start (.ofList cs) := by
    simp only [start, isAbsolute, String.toList_ofList, List.head?_append_of_ne_nil _ h,
      names_append_slash, List.head?_append_of_ne_nil _ (names_ne_nil (.ofList cs))]
  rw [components, components, hstart, names_append_slash, List.filter_append, filter_names_nil,
    List.append_nil]

theorem isAbsolute_of_notMem (h : '/' ∉ name.toList) : isAbsolute name = false := by
  rw [isAbsolute, decide_eq_false_iff_not]
  exact fun hhead => h (List.mem_of_mem_head? hhead)

theorem components_of_notMem (hslash : '/' ∉ name.toList) (hname : counts name = true) :
    components name = [name] := by
  have hne : name ≠ "." := by rintro rfl; cases hname
  simp [components, start, isAbsolute_of_notMem hslash, names_of_notMem hslash, hne, hname]

/-! ## A file in a directory -/

/-- What stands before the name of a file: nothing, or a text with a slash at its
    end. -/
def Slashed (before : List Char) : Prop := before = [] ∨ ∃ cs, before = cs ++ ['/']

/-- The directory of a file stands before its name, with a slash. -/
theorem exists_join_eq (d : String) : ∃ before, Slashed before ∧
    components (.ofList before) = components d ∧
    ∀ name : String, '/' ∉ name.toList → join d name = .ofList (before ++ name.toList) := by
  cases hlast : d.toList.getLast? with
  | none =>
    obtain rfl : d = "" := by simpa using hlast
    refine ⟨[], .inl rfl, rfl, fun name hslash => ?_⟩
    simp [join, isAbsolute_of_notMem hslash]
  | some c =>
    obtain ⟨cs, hcs⟩ := List.getLast?_eq_some_iff.1 hlast
    by_cases hc : c = '/'
    · subst hc
      refine ⟨d.toList, .inr ⟨cs, hcs⟩, by rw [String.ofList_toList], fun name hslash => ?_⟩
      simp [join, isAbsolute_of_notMem hslash, hlast]
    · refine ⟨d.toList ++ ['/'], .inr ⟨_, rfl⟩, ?_, fun name hslash => ?_⟩
      · rw [components_concat_slash (by simp [hcs]), String.ofList_toList]
      · simp [join, isAbsolute_of_notMem hslash, hlast, ← String.toList_inj]

theorem components_before_append (hbefore : Slashed before) (hslash : '/' ∉ name.toList)
    (hname : counts name = true) : components (.ofList (before ++ name.toList)) =
      components (.ofList before) ++ [name] := by
  rcases hbefore with rfl | ⟨cs, rfl⟩
  · rw [List.nil_append, String.ofList_toList, components_of_notMem hslash hname]
    rfl
  · rw [List.append_assoc, List.singleton_append, components_append_slash, String.ofList_toList,
      names_of_notMem hslash, List.filter_cons_of_pos hname, List.filter_nil]

/-- **A file in a directory has one component more.** -/
theorem components_join (d : String) (hslash : '/' ∉ name.toList) (hname : counts name = true) :
    components (join d name) = components d ++ [name] := by
  obtain ⟨before, hbefore, hcomponents, hjoin⟩ := exists_join_eq d
  rw [hjoin name hslash, components_before_append hbefore hslash hname, hcomponents]

/-- A single dot counts for nothing, unless the path begins with it. -/
theorem components_join_dot (d : String) :
    components (join d ".") = components d ∨ components (join d ".") = ["."] := by
  obtain ⟨before, hbefore, hcomponents, hjoin⟩ := exists_join_eq d
  rw [hjoin "." (by decide), ← hcomponents]
  rcases hbefore with rfl | ⟨cs, rfl⟩
  · exact .inr (by decide)
  · refine .inl ?_
    rw [List.append_assoc, List.singleton_append, components_append_slash]
    exact List.append_nil _

/-! ## Another name -/

/-- What is dropped from the end of a path counts for nothing. -/
theorem components_trimEndFrom (rounds : Nat) (cs : List Char) :
    components (.ofList (trimEndFrom rounds cs).reverse) = components (.ofList cs.reverse) := by
  fun_induction trimEndFrom rounds cs with
  | case1 => rfl
  | case2 rounds c cs ih =>
    rw [ih, List.reverse_cons (a := '/'), components_concat_slash (by simp)]
  | case3 rounds c cs ih =>
    have hdot : (names (.ofList ['.'])).filter counts = [] := by decide
    have happend := components_append_slash (c :: cs).reverse ['.']
    rw [hdot, List.append_nil] at happend
    rw [ih, List.reverse_cons (a := '.'), List.reverse_cons (a := '/'), List.append_assoc,
      List.singleton_append, happend]
  | case4 => decide
  | case5 => rfl

theorem trimEndFrom_append {w : List Char} (hslash : '/' ∉ w) (hw : w ≠ [] ∧ w ≠ ['.'])
    (rounds : Nat) (cs : List Char) : trimEndFrom rounds (w ++ cs) = w ++ cs := by
  obtain ⟨c, w, rfl⟩ := List.exists_cons_of_ne_nil hw.1
  rw [List.mem_cons, not_or] at hslash
  generalize hrs : c :: w ++ cs = rs
  fun_cases trimEndFrom rounds rs with
  | case1 | case5 => rfl
  | case2 => exact absurd (List.cons.inj hrs).1.symm hslash.1
  | case3 | case4 =>
    obtain ⟨rfl, hrest⟩ := List.cons.inj hrs
    obtain ⟨e, w, rfl⟩ := List.exists_cons_of_ne_nil fun h : w = [] => hw.2 (h ▸ rfl)
    exact absurd (List.cons.inj hrest).1.symm (List.ne_of_not_mem_cons hslash.2)

theorem reverse_ne_of_counts (h : counts name = true) :
    name.toList.reverse ≠ [] ∧ name.toList.reverse ≠ ['.'] := by
  obtain ⟨hne, hdot⟩ := counts_iff.1 h
  refine ⟨by simpa using hne, fun h => hdot ?_⟩
  rw [← String.toList_inj, ← List.reverse_inj, h]; rfl

/-- The name of a file and what stands before it. -/
theorem splitLast_append (hbefore : Slashed before) (hslash : '/' ∉ name.toList)
    (hname : counts name = true) :
    splitLast (.ofList (before ++ name.toList)) = (name.toList.reverse, before.reverse) := by
  have hall : ∀ c ∈ name.toList.reverse, decide (c ≠ '/') = true := fun c hc => by
    simpa using ne_of_mem_of_not_mem (List.mem_reverse.1 hc) hslash
  have hends : before.reverse.takeWhile (· ≠ '/') = [] ∧
      before.reverse.dropWhile (· ≠ '/') = before.reverse := by
    rcases hbefore with rfl | ⟨cs, rfl⟩
    · exact ⟨rfl, rfl⟩
    · simp
  rw [splitLast, trimmedEnd, String.toList_ofList, List.reverse_append,
    trimEndFrom_append (by simpa using hslash) (reverse_ne_of_counts hname),
    List.takeWhile_append_of_pos hall, List.dropWhile_append_of_pos hall, hends.1, hends.2, List.append_nil]

/-- A name that a file can have: it counts, has no slash in it, and does not lead
    back. -/
structure IsFileName (name : String) : Prop where
  slash_notMem : '/' ∉ name.toList
  counts : counts name = true
  ne_dots : name ≠ ".."

theorem fileName?_append (hbefore : Slashed before) (hname : IsFileName name) :
    fileName? (.ofList (before ++ name.toList)) = some name := by
  obtain ⟨hne, hdot⟩ := reverse_ne_of_counts hname.counts
  rw [fileName?, splitLast_append hbefore hname.slash_notMem hname.counts]
  split
  · rename_i h; exact absurd h hne
  · rename_i h; exact absurd h hdot
  · rename_i h
    refine absurd ?_ hname.ne_dots
    rw [← String.toList_inj, ← List.reverse_inj]
    exact h
  · rw [List.reverse_reverse, String.ofList_toList]

theorem fileName?_join (d : String) (hname : IsFileName name) :
    fileName? (join d name) = some name := by
  obtain ⟨before, hbefore, -, hjoin⟩ := exists_join_eq d
  rw [hjoin name hname.slash_notMem, fileName?_append hbefore hname]

/-- **With another name, a file stays in its directory.** -/
theorem exists_withFileName_eq (d : String) (hname : IsFileName name) :
    ∃ d', components d' = components d ∧
      ∀ other, withFileName (join d name) other = join d' other := by
  obtain ⟨before, hbefore, hcomponents, hjoin⟩ := exists_join_eq d
  have hparent : parent? (join d name) =
      some (.ofList (trimEndFrom before.reverse.length before.reverse).reverse) := by
    rw [hjoin name hname.slash_notMem, parent?,
      splitLast_append hbefore hname.slash_notMem hname.counts]
    split
    · rename_i h
      exact absurd (Prod.mk.inj h).1 (reverse_ne_of_counts hname.counts).1
    · rename_i h
      obtain ⟨-, rfl⟩ := Prod.mk.inj h
      rfl
  refine ⟨.ofList (trimEndFrom before.reverse.length before.reverse).reverse, ?_, fun other => ?_⟩
  · rw [components_trimEndFrom, List.reverse_reverse, hcomponents]
  · rw [withFileName, fileName?_join d hname, hparent]
    rfl

/-! ## Places -/

/-- Where a component leads from a place. -/
def enter (place : List String) (component : String) : List String :=
  if component = "" then []
  else if component = "." then place
  else if component = ".." then place.dropLast
  else place ++ [component]

/-- Where a path leads from the directory `current`, as its components say. -/
def place (current : List String) (path : String) : List String :=
  (components path).foldl enter current

theorem enter_of_counts {place : List String} (hname : counts name = true) (hdots : name ≠ "..") :
    enter place name = place ++ [name] := by
  obtain ⟨hne, hdot⟩ := counts_iff.1 hname
  rw [enter, if_neg hne, if_neg hdot, if_neg hdots]

theorem place_join (current : List String) (d : String) (hname : IsFileName name) :
    place current (join d name) = place current d ++ [name] := by
  rw [place, components_join d hname.slash_notMem hname.counts, List.foldl_append, List.foldl_cons,
    List.foldl_nil, enter_of_counts hname.counts hname.ne_dots]
  rfl

end Path

namespace FileTree

open Deduction.Path

variable {t : FileTree} {place : List String} {path : String}

theorem foldl_enter_of_walk {start : List String} {names : List String}
    (h : t.walk start names = .ok place) : place = (names.filter counts).foldl enter start := by
  fun_induction walk t start names with
  | case1 => exact (Except.ok.inj h).symm
  | case2 | case3 | case6 => cases h
  | case4 start name names _ hname ih =>
    rw [Bool.or_eq_true, decide_eq_true_eq, decide_eq_true_eq] at hname
    have hcounts : ¬counts name = true := fun h => by
      obtain ⟨hne, hdot⟩ := counts_iff.1 h
      exact hname.elim hne hdot
    rw [ih h, List.filter_cons_of_neg hcounts]
  | case5 start names _ hname ih =>
    rw [ih h, List.filter_cons_of_pos (by decide), List.foldl_cons]
    rfl
  | case7 start name names _ hname hdots _ ih =>
    rw [Bool.or_eq_true, decide_eq_true_eq, decide_eq_true_eq, not_or] at hname
    have hcounts := counts_iff.2 hname
    rw [ih h, List.filter_cons_of_pos hcounts, List.foldl_cons, enter_of_counts hcounts hdots]

/-- **A path that leads somewhere leads where its components say.** -/
theorem eq_place_of_resolve (h : t.resolve path = .ok place) :
    place = Path.place t.current path := by
  rw [resolve] at h
  split at h
  · cases h
  split at h
  · cases h
  split at h
  · cases h
  rw [foldl_enter_of_walk h, Path.place, components, List.foldl_append, Path.start]
  congr 1
  split
  · rfl
  · split <;> rfl

end FileTree

end Deduction
