/-
  Where the output for an input is written.

  Without an output directory, the output for `d/x.proof` is written beside it.
  The name is cut at a dot twice: once to drop `.proof`, and once more when the
  extension of the format is put in place of what follows the last dot of `x`.

  * `Path.Undotted`: a stem with no dot at which it would be cut;
  * `FileTree.Leads`: where a path leads in some file tree.

  Main statement: the output is `d/x.<extension>` exactly if `x` is undotted, and
  two inputs have one output file exactly if they stand in one directory and their
  stems agree up to their last dots (`outputPath_beside_iff`).
-/
import Deduction.Compilation
import Deduction.Proofs.Files.Path

namespace Deduction

namespace Path

variable {d x y ext : String}

/-! ## Stems -/

/-- The name of a file without its extension: not empty, and without a slash. -/
structure IsStem (x : String) : Prop where
  ne_empty : x ≠ ""
  slash_notMem : '/' ∉ x.toList

/-- A stem with no dot behind its first character, and not only a dot. -/
def Undotted (x : String) : Prop := x ≠ "." ∧ '.' ∉ x.toList.tail

instance (x : String) : Decidable (Undotted x) := inferInstanceAs (Decidable (_ ∧ _))

/-- A name is cut at its last dot, unless that is its first character or the name
    is two dots. -/
theorem stem_append (x : String) (hext : '.' ∉ ext.toList) : stem (x ++ "." ++ ext) =
    if x = "" ∨ x ++ "." ++ ext = ".." then x ++ "." ++ ext else x := by
  have hall : ∀ c ∈ ext.toList.reverse, decide (c ≠ '.') = true := fun c hc => by
    simpa using ne_of_mem_of_not_mem (List.mem_reverse.1 hc) hext
  have hdrop : (x ++ "." ++ ext).toList.reverse.dropWhile (· ≠ '.') = '.' :: x.toList.reverse := by
    simp only [String.toList_append, List.reverse_append, List.dropWhile_append_of_pos hall]
    rfl
  rw [stem, hdrop]
  simp

theorem stem_of_notMem (h : '.' ∉ x.toList) : stem x = x := by
  have hdrop : x.toList.reverse.dropWhile (· ≠ '.') = [] :=
    List.dropWhile_eq_nil_iff.2 fun c hc => by
      simpa using ne_of_mem_of_not_mem (List.mem_reverse.1 hc) h
  rw [stem, hdrop]

theorem exists_last_dot (h : '.' ∈ x.toList) :
    ∃ a ext : String, x = a ++ "." ++ ext ∧ '.' ∉ ext.toList := by
  obtain ⟨cs, ds, hx, hcs⟩ := List.eq_append_cons_of_mem (List.mem_reverse.2 h)
  refine ⟨.ofList ds.reverse, .ofList cs.reverse, ?_, by simpa using hcs⟩
  rw [← String.toList_inj, ← List.reverse_inj, hx]
  simp

/-- A stem that is undotted is not cut, and any other is, but for the two that are no
    names. -/
theorem stem_eq_self_iff (hdots : x ≠ "." ∧ x ≠ "..") : stem x = x ↔ Undotted x := by
  by_cases h : '.' ∈ x.toList
  · obtain ⟨a, ext, rfl, hext⟩ := exists_last_dot h
    rw [stem_append a hext]
    by_cases ha : a = ""
    · subst ha
      exact iff_of_true (by simp) ⟨hdots.1, by simpa using hext⟩
    · have hcut : a ≠ a ++ "." ++ ext := fun heq => by
        have hlength := congrArg String.length heq
        simp only [String.length_append] at hlength
        change a.length = a.length + 1 + ext.length at hlength
        omega
      have htail : '.' ∈ (a ++ "." ++ ext).toList.tail := by
        have hne : a.toList ≠ [] := fun h => ha (by simpa using h)
        obtain ⟨c, cs, hcs⟩ := List.exists_cons_of_ne_nil hne
        simp [hcs]
      rw [if_neg (by simp [ha, hdots.2])]
      exact ⟨fun heq => absurd heq hcut, fun hundotted => absurd htail hundotted.2⟩
  · have hundotted : Undotted x := ⟨hdots.1, fun htail => h (List.mem_of_mem_tail htail)⟩
    simp [stem_of_notMem h, hundotted]

theorem Undotted.ne_dots (h : Undotted x) : x ≠ "." ∧ x ≠ ".." :=
  ⟨h.1, by rintro rfl; exact h.2 (by decide)⟩

theorem Undotted.stem_eq (h : Undotted x) : stem x = x := (stem_eq_self_iff h.ne_dots).2 h

theorem stem_isPrefix (x : String) : (stem x).toList <+: x.toList := by
  by_cases h : '.' ∈ x.toList
  · obtain ⟨a, ext, rfl, hext⟩ := exists_last_dot h
    rw [stem_append a hext]
    split
    · exact List.prefix_refl _
    · exact ⟨"." ++ ext |>.toList, by simp⟩
  · simp [stem_of_notMem h]

theorem isFileName_append (hx : '/' ∉ x.toList) (hext : '/' ∉ ext.toList)
    (hlength : 2 ≤ ext.length) : IsFileName (x ++ "." ++ ext) := by
  have hlong : 3 ≤ (x ++ "." ++ ext).length := by
    simp only [String.length_append]
    change 3 ≤ x.length + 1 + ext.length
    omega
  have hne : ∀ w : String, w.length < 3 → x ++ "." ++ ext ≠ w := by
    rintro w hw rfl
    omega
  have hcounts := counts_iff.2 ⟨hne "" (by decide), hne "." (by decide)⟩
  exact ⟨by simp [hx, hext], hcounts, hne ".." (by decide)⟩

theorem IsStem.isFileName_proof (hx : IsStem x) : IsFileName (x ++ ".proof") := by
  have h := isFileName_append hx.slash_notMem (by decide : '/' ∉ "proof".toList) (by decide)
  rwa [String.append_assoc] at h

theorem IsStem.stem_proof (hx : IsStem x) : stem (x ++ ".proof") = x := by
  have h := stem_append x (by decide : '.' ∉ "proof".toList)
  rw [String.append_assoc] at h
  refine h.trans (if_neg ?_)
  exact not_or.2 ⟨hx.ne_empty, hx.isFileName_proof.ne_dots⟩

theorem IsStem.slash_notMem_stem (hx : IsStem x) : '/' ∉ (stem x).toList :=
  fun h => hx.slash_notMem ((stem_isPrefix x).subset h)

end Path

/-! ## Names of outputs -/

open Deduction.Path

variable {d e x y : String} {s : Settings} {f : OutputFormat}

theorem OutputFormat.extension_spec (f : OutputFormat) :
    '/' ∉ f.extension.toList ∧ 2 ≤ f.extension.length := by
  cases f <;> decide

theorem Path.fileName?_of_isStem (hx : IsStem x) (hdots : x ≠ "." ∧ x ≠ "..") :
    fileName? x = some x := by
  have hname : IsFileName x := ⟨hx.slash_notMem, counts_iff.2 ⟨hx.ne_empty, hdots.1⟩, hdots.2⟩
  have h := fileName?_append (.inl rfl) hname
  rwa [List.nil_append, String.ofList_toList] at h

/-- The output for `d/x.proof` is named after `x`, which is cut at its last dot. -/
theorem outputName_join (d : String) (hx : IsStem x) (f : OutputFormat) :
    outputName (join d (x ++ ".proof")) f =
      if x = "." ∨ x = ".." then x else stem x ++ "." ++ f.extension := by
  rw [outputName, fileName?_join d hx.isFileName_proof, Option.map_some, Option.getD_some,
    hx.stem_proof, withExtension]
  by_cases h : x = "." ∨ x = ".."
  · rcases h with rfl | rfl <;> rfl
  · rw [fileName?_of_isStem hx (not_or.1 h), if_neg h]
    rfl

theorem exists_outputPath_eq (hs : s.directory = none) (d : String) (hx : IsStem x)
    (f : OutputFormat) : ∃ d', components d' = components d ∧
      outputPath s (join d (x ++ ".proof")) f =
        join d' (if x = "." ∨ x = ".." then x else stem x ++ "." ++ f.extension) := by
  obtain ⟨d', hd', hname⟩ := exists_withFileName_eq d hx.isFileName_proof
  refine ⟨d', hd', ?_⟩
  rw [outputPath, hs, ← outputName_join d hx f]
  exact hname _

/-- The output is beside the input and has its name exactly if there is no dot to
    cut at. -/
theorem components_outputPath_iff (hs : s.directory = none) (d : String) (hx : IsStem x)
    (f : OutputFormat) : components (outputPath s (join d (x ++ ".proof")) f) =
      components (join d (x ++ "." ++ f.extension)) ↔ Undotted x := by
  obtain ⟨d', hd', hpath⟩ := exists_outputPath_eq hs d hx f
  obtain ⟨hslash, hlength⟩ := f.extension_spec
  have hname := isFileName_append hx.slash_notMem hslash hlength
  rw [hpath, components_join d hname.slash_notMem hname.counts, ← hd']
  by_cases hdots : x = "." ∨ x = ".."
  · rw [if_pos hdots]
    refine iff_of_false (fun heq => ?_) fun hundotted => ?_
    · rcases hdots with rfl | rfl
      · rcases components_join_dot d' with hdot | hdot
        · simpa using congrArg List.length (hdot.symm.trans heq)
        · have hlast := congrArg List.getLast? (hdot.symm.trans heq)
          rw [List.getLast?_singleton, List.getLast?_concat] at hlast
          exact (counts_iff.1 hname.counts).2 (Option.some.inj hlast).symm
      · rw [components_join d' (by decide) (by decide)] at heq
        exact hname.ne_dots (List.singleton_inj.1 (List.append_cancel_left heq)).symm
    · rcases hdots with rfl | rfl <;> revert hundotted <;> decide
  · have hcut := isFileName_append hx.slash_notMem_stem hslash hlength
    rw [if_neg hdots, components_join d' hcut.slash_notMem hcut.counts,
      ← stem_eq_self_iff (not_or.1 hdots)]
    simp

/-! ## Output files -/

/-- The path leads to the place in some file tree, from the directory `current`. -/
def FileTree.Leads (current : List String) (path : String) (place : List String) : Prop :=
  ∃ t : FileTree, t.current = current ∧ t.resolve path = .ok place

theorem FileTree.Leads.eq_place {current place : List String} {path : String}
    (h : Leads current path place) : place = Path.place current path := by
  obtain ⟨t, rfl, h⟩ := h
  exact eq_place_of_resolve h

theorem place_outputPath (hs : s.directory = none) (current : List String) (d : String)
    (hx : IsStem x) (hdots : x ≠ "." ∧ x ≠ "..") (f : OutputFormat) :
    place current (outputPath s (join d (x ++ ".proof")) f) =
      place current d ++ [stem x ++ "." ++ f.extension] := by
  obtain ⟨d', hd', hpath⟩ := exists_outputPath_eq hs d hx f
  obtain ⟨hslash, hlength⟩ := f.extension_spec
  have hplace : place current d' = place current d := by rw [place, hd', place]
  rw [hpath, if_neg (not_or.2 hdots),
    place_join current d' (isFileName_append hx.slash_notMem_stem hslash hlength), hplace]

/-- **The output for `d/x.proof` is `d/x.<extension>` exactly if `x` has no dot behind
    its first character**, and is not only a dot; otherwise `x` is cut at its last
    dot.  So inputs at two places have outputs at two places if their stems are
    undotted, and in general they share one exactly if they stand in one directory
    and their stems agree up to their last dots. -/
theorem outputPath_beside_iff (hs : s.directory = none) (f : OutputFormat) (d e : String)
    (hx : IsStem x) (hy : IsStem y) :
    (components (outputPath s (join d (x ++ ".proof")) f) =
        components (join d (x ++ "." ++ f.extension)) ↔ Undotted x) ∧
      ∀ current p q p' q', FileTree.Leads current (join d (x ++ ".proof")) p →
        FileTree.Leads current (join e (y ++ ".proof")) q →
        FileTree.Leads current (outputPath s (join d (x ++ ".proof")) f) p' →
        FileTree.Leads current (outputPath s (join e (y ++ ".proof")) f) q' →
        (Undotted x → Undotted y → p ≠ q → p' ≠ q') ∧
        (x ≠ "." ∧ x ≠ ".." → y ≠ "." ∧ y ≠ ".." →
          (p' = q' ↔ p.dropLast = q.dropLast ∧ stem x = stem y)) := by
  refine ⟨components_outputPath_iff hs d hx f, fun current p q p' q' hp hq hp' hq' => ?_⟩
  have hp₀ := hp.eq_place.trans (place_join current d hx.isFileName_proof)
  have hq₀ := hq.eq_place.trans (place_join current e hy.isFileName_proof)
  have hshared : x ≠ "." ∧ x ≠ ".." → y ≠ "." ∧ y ≠ ".." →
      (p' = q' ↔ p.dropLast = q.dropLast ∧ stem x = stem y) := by
    intro hxdots hydots
    rw [hp'.eq_place, hq'.eq_place, place_outputPath hs current d hx hxdots,
      place_outputPath hs current e hy hydots, hp₀, hq₀]
    simp
  refine ⟨fun hux huy hne heq => hne ?_, hshared⟩
  obtain ⟨hdir, hstem⟩ := (hshared hux.ne_dots huy.ne_dots).1 heq
  rw [hux.stem_eq, huy.stem_eq] at hstem
  rw [hp₀, hq₀, List.dropLast_concat, List.dropLast_concat] at hdir
  rw [hp₀, hq₀, hdir, hstem]

/-- A directory `/work` with two proofs in `archive`, whose stems differ behind the last
    dot. -/
def FileTree.archives : FileTree where
  current := ["work"]
  nodes := [(["work"], .directory), (["work", "archive"], .directory),
    (["work", "archive", "demo.tar.proof"], .file .empty),
    (["work", "archive", "demo.zip.proof"], .file .empty)]

theorem outputPath_beside_iff_archives :
    (Settings.default.directory = none ∧ IsStem "demo.tar" ∧ IsStem "demo.zip") ∧
      components (outputPath .default (join "archive/./" ("demo.tar" ++ ".proof")) .latex) ≠
        components (join "archive/./" ("demo.tar" ++ "." ++ "tex")) ∧
      FileTree.Leads ["work"]
        (outputPath .default (join "archive/./" ("demo.tar" ++ ".proof")) .latex)
        ["work", "archive", "demo.tex"] ∧
      FileTree.Leads ["work"] (outputPath .default (join "archive" ("demo.zip" ++ ".proof")) .latex)
        ["work", "archive", "demo.tex"] ∧
      (["work", "archive", "demo.tar.proof"].dropLast =
          ["work", "archive", "demo.zip.proof"].dropLast ∧
        stem "demo.tar" = stem "demo.zip") := by
  have hx : IsStem "demo.tar" := ⟨by decide, by decide⟩
  have hy : IsStem "demo.zip" := ⟨by decide, by decide⟩
  obtain ⟨hbeside, hshared⟩ :=
    outputPath_beside_iff (s := .default) rfl .latex "archive/./" "archive" hx hy
  have hp' : FileTree.Leads ["work"]
      (outputPath .default (join "archive/./" ("demo.tar" ++ ".proof")) .latex)
      ["work", "archive", "demo.tex"] := ⟨.archives, rfl, by decide +kernel⟩
  have hq' : FileTree.Leads ["work"]
      (outputPath .default (join "archive" ("demo.zip" ++ ".proof")) .latex)
      ["work", "archive", "demo.tex"] := ⟨.archives, rfl, by decide +kernel⟩
  refine ⟨⟨rfl, hx, hy⟩, mt hbeside.1 (by decide), hp', hq', ?_⟩
  refine ((hshared ["work"] _ _ _ _ ⟨.archives, rfl, ?_⟩ ⟨.archives, rfl, ?_⟩ hp' hq').2
    (by decide) (by decide)).1 rfl
  · decide +kernel
  · decide +kernel

/-- The output for `demo.tar.proof` is not `demo.tar.tex`, and it is the output for
    `demo.zip.proof` as well. -/
theorem outputPath_cuts_stem :
    outputPath .default "archive/demo.tar.proof" .latex = "archive/demo.tex" ∧
      components "archive/demo.tex" ≠ components "archive/demo.tar.tex" ∧
      outputPath .default "archive/demo.zip.proof" .latex = "archive/demo.tex" := by
  decide +kernel

end Deduction
