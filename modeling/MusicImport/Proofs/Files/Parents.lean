import Mathlib.Data.List.Basic
import MusicImport.Proofs.Files.Operations
import MusicImport.Proofs.Paths

/-! The directory of a file. The path of a file that is there goes on from that of its parent, so the
parent leads to a directory, and nothing has to be made for it. -/
namespace MusicImport

namespace FilePath

variable {p parent : FilePath}

theorem pieces_ne_nil (p : FilePath) : p.pieces ≠ [] := by
  unfold pieces Text.split
  simpa using Text.splitChars_ne_nil '/' p.text.toList

theorem slash_not_mem_piece {piece : String} (h : piece ∈ p.pieces) : '/' ∉ piece.toList :=
  Text.not_mem_of_mem_splitChars (Text.mem_split.mp h)

/-- An absolute path has nothing before its first separator. -/
theorem isAbsolute_iff : p.isAbsolute ↔ p.pieces.head? = some "" ∧ 1 < p.pieces.length := by
  unfold isAbsolute pieces Text.split
  cases p.text.toList with
  | nil => simp [Text.splitChars]
  | cons c cs =>
    have hne := Text.splitChars_ne_nil '/' cs
    by_cases hc : c = '/'
    · subst hc
      have hlength := List.length_pos_iff.mpr hne
      simp [Text.splitChars, hlength]
    · cases hcs : Text.splitChars '/' cs with
      | nil => exact absurd hcs hne
      | cons piece pieces =>
        simp [Text.splitChars, hc, hcs]

/-- Joined pieces are the pieces of the path. -/
theorem pieces_joinWith {pieces : List String} (hne : pieces ≠ [])
    (h : ∀ piece ∈ pieces, '/' ∉ piece.toList) :
    (FilePath.mk (Text.joinWith "/" pieces)).pieces = pieces := by
  have hslash : "/" = String.ofList ['/'] := rfl
  unfold FilePath.pieces Text.split
  rw [hslash, Text.splitChars_joinWith hne h]
  simp

/-- Behind the first piece, taking fewer components than there are stops at a piece that has a name, and
leaves some. -/
theorem takeComponents_split (absolute : Bool) {n : Nat} {pieces : List String}
    (h : n < (pieces.filterMap (Component.ofPiece? false)).length) :
    ∃ rest, pieces = takeComponents absolute n false pieces ++ rest ∧
      rest.filterMap (Component.ofPiece? false) ≠ [] ∧
      (takeComponents absolute n false pieces).getLast? ≠ some "" ∧
      (n ≠ 0 → takeComponents absolute n false pieces ≠ []) := by
  induction pieces generalizing n with
  | nil => simp at h
  | cons piece pieces ih =>
    cases n with
    | zero =>
      refine ⟨piece :: pieces, rfl, ?_, by simp [takeComponents], by simp⟩
      exact List.length_pos_iff.mp h
    | succ n =>
      have hcounts : counts absolute false piece = (Component.ofPiece? false piece).isSome := rfl
      cases hpiece : Component.ofPiece? false piece with
      | none =>
        rw [List.filterMap_cons, hpiece] at h
        obtain ⟨rest, hrest, hleft, hlast, htaken⟩ := ih h
        simp only [takeComponents, hcounts, hpiece, Option.isSome_none, Bool.false_eq_true, if_false]
        refine ⟨rest, by rw [List.cons_append, ← hrest], hleft, ?_, by simp⟩
        rw [List.getLast?_cons_of_ne_nil (htaken (by omega))]
        exact hlast
      | some component =>
        have hname : piece ≠ "" := by
          rintro rfl
          simp [Component.ofPiece?] at hpiece
        rw [List.filterMap_cons, hpiece, List.length_cons] at h
        obtain ⟨rest, hrest, hleft, hlast, -⟩ := ih (n := n) (by omega)
        simp only [takeComponents, hcounts, hpiece, Option.isSome_some, if_true]
        refine ⟨rest, by rw [List.cons_append, ← hrest], hleft, ?_, by simp⟩
        rw [List.getLast?_cons]
        cases hl : (takeComponents absolute n false pieces).getLast? with
        | none => simpa using hname
        | some last =>
          rw [hl] at hlast
          simpa using hlast

/-- How many components there are, the first piece apart. -/
theorem length_components {first : String} {tail : List String} (h : p.pieces = first :: tail) :
    p.components.length = (if counts p.isAbsolute true first then 1 else 0) +
      (tail.filterMap (Component.ofPiece? false)).length := by
  unfold components counts
  rw [h]
  by_cases habs : p.isAbsolute
  · simp [habs]
    omega
  · cases hfirst : Component.ofPiece? true first <;> simp [habs, hfirst]
    omega

theorem head?_components (h : p.isAbsolute) : p.components.head? = some .root := by
  unfold components
  cases hpieces : p.pieces with
  | nil => exact absurd hpieces p.pieces_ne_nil
  | cons first tail => simp [h]

/-- Fewer components than there are end with a piece that has a name, if an absolute path is taken with
more than its root. -/
theorem takeComponents_pieces {b : Nat} (hb : b + 1 < p.components.length)
    (habsolute : p.isAbsolute → b ≠ 0) :
    ∃ kept rest, takeComponents p.isAbsolute (b + 1) true p.pieces = kept ∧
      p.pieces = kept ++ rest ∧ rest.filterMap (Component.ofPiece? false) ≠ [] ∧
      kept ≠ [] ∧ kept.getLast? ≠ some "" := by
  cases hpieces : p.pieces with
  | nil => exact absurd hpieces p.pieces_ne_nil
  | cons first tail =>
    rw [length_components hpieces] at hb
    obtain ⟨n, hn, htake, hfirst⟩ : ∃ n,
        n < (tail.filterMap (Component.ofPiece? false)).length ∧
        takeComponents p.isAbsolute (b + 1) true (first :: tail) =
          first :: takeComponents p.isAbsolute n false tail ∧ (n = 0 → first ≠ "") := by
      by_cases hc : counts p.isAbsolute true first
      · refine ⟨b, by simp [hc] at hb; omega, by simp [takeComponents, hc], ?_⟩
        rintro hzero rfl
        have habs : ¬ p.isAbsolute := fun habs => habsolute habs hzero
        simp [counts, habs, Component.ofPiece?] at hc
      · exact ⟨b + 1, by simp [hc] at hb; omega, by simp [takeComponents, hc], by simp⟩
    obtain ⟨rest, hrest, hleft, hlast, htaken⟩ := takeComponents_split p.isAbsolute hn
    refine ⟨_, rest, htake, by rw [List.cons_append, ← hrest], hleft, List.cons_ne_nil _ _, ?_⟩
    by_cases hzero : n = 0
    · subst hzero
      simpa [takeComponents] using hfirst rfl
    · rwa [List.getLast?_cons_of_ne_nil (htaken hzero)]

/-- First pieces of a path that end with a name are the pieces of a path of their own. -/
theorem joinWith_of_pieces {kept rest : List String} (h : p.pieces = kept ++ rest) (hne : kept ≠ [])
    (hlast : kept.getLast? ≠ some "") :
    (FilePath.mk (Text.joinWith "/" kept)).pieces = kept ∧
      (FilePath.mk (Text.joinWith "/" kept)).isAbsolute = p.isAbsolute := by
  have hpieces := pieces_joinWith hne fun piece hmem =>
    slash_not_mem_piece (p := p) (h ▸ List.mem_append_left rest hmem)
  refine ⟨hpieces, ?_⟩
  rw [Bool.eq_iff_iff, isAbsolute_iff, isAbsolute_iff, hpieces, h]
  match kept with
  | [] => exact absurd rfl hne
  | [first] =>
    have hfirst : first ≠ "" := by simpa using hlast
    simp [hfirst]
  | first :: second :: kept => simp

/-- The pieces of a path go on from those of its parent, which is absolute exactly if the path is, and
something that counts is left. -/
theorem parent_pieces (h : p.parent? = some parent) :
    parent = ⟨""⟩ ∨ parent = ⟨"/"⟩ ∨
      ∃ rest, p.pieces = parent.pieces ++ rest ∧ rest.filterMap (Component.ofPiece? false) ≠ [] ∧
        parent.pieces.getLast? ≠ some "" ∧ parent.isAbsolute = p.isAbsolute := by
  unfold parent? at h
  split at h
  · cases h
  · cases h
  next last before hlast hcomponents =>
    have hreverse : p.components = before.reverse ++ [last] := by
      simpa using congrArg List.reverse hcomponents
    split at h
    · cases h
      exact .inr (.inl rfl)
    next hroot =>
      cases h
      cases hbefore : before.length with
      | zero => exact .inl (by simp [takeComponents, Text.joinWith])
      | succ b =>
        have hlength : b + 1 < p.components.length := by simp [hreverse, hbefore]
        -- an absolute path has a component besides the root in front of its last one
        have habsolute : p.isAbsolute → b ≠ 0 := by
          rintro habs rfl
          obtain ⟨component, rfl⟩ := List.length_eq_one_iff.mp hbefore
          have hhead := head?_components habs
          rw [hreverse] at hhead
          exact hroot (by simpa using hhead)
        obtain ⟨kept, rest, htake, hpieces, hleft, hne, hname⟩ :=
          takeComponents_pieces hlength habsolute
        obtain ⟨hkept, hsame⟩ := joinWith_of_pieces hpieces hne hname
        rw [htake]
        exact .inr (.inr ⟨rest, by rw [hkept, hpieces], hleft, by rwa [hkept], hsame⟩)

end FilePath

namespace FileTree

variable {t t' : FileTree} {followLast : Bool} {fuel : Nat} {a p : Place} {n : Node}
  {path parent : FilePath} {c : ByteArray}

/-- The step that a piece between separators stands for, other than the last. -/
def Step.ofPiece? (piece : String) : Option Step :=
  if piece = "" then none
  else if piece = "." then some .stay
  else if piece = ".." then some .up
  else some (.down piece)

theorem Step.ofPiece?_isSome {piece : String} {component : FilePath.Component}
    (h : FilePath.Component.ofPiece? false piece = some component) :
    ∃ step, ofPiece? piece = some step := by
  unfold FilePath.Component.ofPiece? at h
  unfold ofPiece?
  split at h
  · cases h
  next hne =>
    rw [if_neg hne]
    split
    · exact ⟨_, rfl⟩
    · split <;> exact ⟨_, rfl⟩

/-- The steps of a path, piece by piece. -/
theorem steps_eq (path : FilePath) :
    steps path = path.pieces.filterMap Step.ofPiece? ++
      if path.pieces.getLast? = some "" ∧ 1 < path.pieces.length then [.stay] else [] := by
  obtain ⟨init, last, hpieces⟩ : ∃ init last, path.pieces = init ++ [last] :=
    ⟨_, _, (List.dropLast_concat_getLast path.pieces_ne_nil).symm⟩
  have hinit : (init.zipIdx).filterMap (fun x =>
        if x.1 = "" then if x.2 ≠ 0 && x.2 + 1 = (init ++ [last]).length then some Step.stay else none
        else if x.1 = "." then some .stay
        else if x.1 = ".." then some .up
        else some (.down x.1)) = init.filterMap Step.ofPiece? := by
    have hfst : init.zipIdx.filterMap (fun x => Step.ofPiece? x.1) = init.filterMap Step.ofPiece? := by
      have hmap := List.filterMap_map (f := Prod.fst) (g := Step.ofPiece?) (l := init.zipIdx)
      rw [List.zipIdx_map_fst] at hmap
      exact hmap.symm
    rw [← hfst]
    refine List.filterMap_congr fun x hx => ?_
    have hbound := List.snd_lt_of_mem_zipIdx hx
    have hnot : ¬ (x.2 = init.length) := by omega
    simp [Step.ofPiece?, hnot]
  simp only [steps, hpieces]
  rw [List.zipIdx_append, List.filterMap_append, hinit, List.filterMap_append,
    List.append_assoc]
  congr 1
  by_cases hlast : last = ""
  · subst hlast
    by_cases hlength : init = []
    · simp [hlength, Step.ofPiece?]
    · have := List.length_pos_iff.mpr hlength
      simp [Step.ofPiece?, hlength]
  · rw [List.zipIdx_singleton, List.filterMap_cons, List.filterMap_cons]
    simp [Step.ofPiece?, hlast]

/-- A walk that goes on leads to a directory first, also if links at the end of its first part are
followed. -/
theorem WellFormed.walk_split (h : t.WellFormed) {before after : List Step} (hafter : after ≠ [])
    (ha : t.nodeAt? a = some .directory)
    (hw : t.walk followLast fuel a (before ++ after) = .ok p) :
    ∃ d, t.walk true fuel a before = .ok d ∧ t.nodeAt? d = some .directory := by
  induction fuel generalizing a before with
  | zero =>
    cases before with
    | nil => exact ⟨a, by simp, ha⟩
    | cons step before => simp [walk] at hw
  | succ fuel ih =>
    cases before with
    | nil => exact ⟨a, by simp, ha⟩
    | cons step before =>
      cases step with
      | stay => exact ih ha hw
      | up => exact ih (h.parent ha) hw
      | down name =>
        rw [List.cons_append] at hw
        obtain ⟨hn, hw⟩ | ⟨target, hn, -, hw⟩ | ⟨hnil, -, -⟩ := walk_down hw
        · obtain ⟨d, hd, hdir⟩ := ih hn hw
          exact ⟨d, by simpa only [walk, hn] using hd, hdir⟩
        · rw [← List.append_assoc] at hw
          obtain ⟨d, hd, hdir⟩ := ih (directory_origin target ha) hw
          refine ⟨d, ?_, hdir⟩
          simpa [walk, hn] using hd
        · exact absurd (List.append_eq_nil_iff.mp hnil).2 hafter

/-- A walk to something that is there ends at it, or at a link to it. -/
theorem walk_noFollow {steps : List Step} (hw : t.walk true fuel a steps = .ok p)
    (hn : t.nodeAt? p = some n) :
    ∃ q m, t.walk false fuel a steps = .ok q ∧ t.nodeAt? q = some m := by
  induction fuel generalizing a steps with
  | zero =>
    cases steps with
    | nil => exact ⟨p, n, by simpa using hw, hn⟩
    | cons step rest => simp [walk] at hw
  | succ fuel ih =>
    cases steps with
    | nil => exact ⟨p, n, by simpa using hw, hn⟩
    | cons step rest =>
      cases step with
      | stay => exact ih hw
      | up => exact ih hw
      | down name =>
        obtain ⟨hd, hw⟩ | ⟨target, hd, -, hw⟩ | ⟨rfl, rfl, hlink⟩ := walk_down hw
        · simpa only [walk, hd] using ih hw
        · by_cases hrest : rest = []
          · subst hrest
            exact ⟨a ++ [name], _, by simp [walk, hd], hd⟩
          · simpa [walk, hd, hrest] using ih hw
        · exact ⟨_, n, walk_last (hlink rfl), hn⟩

/-- Nothing is made for a directory that is there. -/
theorem ensureDirectory_of_isDirectory (h : t.isDirectory path) : t.ensureDirectory path = .ok t := by
  have hfind : t.find? path = some .directory := by
    unfold isDirectory at h
    split at h
    · assumption
    · cases h
  obtain ⟨d, hd, hdir⟩ : ∃ d, t.locate path = .ok d ∧ t.nodeAt? d = some .directory := by
    unfold find? at hfind
    split at hfind
    next d hd => exact ⟨d, hd, hfind⟩
    · cases hfind
  have htext : path.text ≠ "" := by
    intro htext
    simp [locate, htext] at hd
  obtain ⟨q, m, hq, hm⟩ : ∃ q m, t.locate path false = .ok q ∧ t.nodeAt? q = some m := by
    unfold locate at hd ⊢
    rw [if_neg htext] at hd ⊢
    exact walk_noFollow hd hdir
  have hexists : t.createDirectory path = .error .exists := by
    simp [createDirectory, hq, hm, Bind.bind, Except.bind, throw, throwThe, MonadExceptOf.throw]
  unfold ensureDirectory
  rw [createDirectories, if_neg htext, hexists]
  simp [h]

/-- The directory of a path that leads somewhere is there. -/
theorem WellFormed.ensureDirectory_parent (h : t.WellFormed) (hl : t.locate path = .ok p)
    (hp : path.parent? = some parent) : t.ensureDirectory parent = .ok t := by
  obtain rfl | rfl | ⟨rest, hpieces, hrest, hlast, habsolute⟩ := FilePath.parent_pieces hp
  · rfl
  · exact ensureDirectory_of_isDirectory rfl
  · have hsteps : steps parent = parent.pieces.filterMap Step.ofPiece? := by
      simp [steps_eq parent, hlast]
    obtain ⟨after, hafter, hne⟩ : ∃ after, steps path = steps parent ++ after ∧ after ≠ [] := by
      rw [steps_eq path, hpieces, List.filterMap_append, List.append_assoc, hsteps]
      refine ⟨_, rfl, fun hnil => hrest ?_⟩
      have hnone := (List.append_eq_nil_iff.mp hnil).1
      rw [List.filterMap_eq_nil_iff] at hnone ⊢
      intro piece hmem
      cases hpiece : FilePath.Component.ofPiece? false piece with
      | none => rfl
      | some component =>
        obtain ⟨step, hstep⟩ := Step.ofPiece?_isSome hpiece
        simp [hnone piece hmem] at hstep
    have horigin : origin parent t.workingDirectory = origin path t.workingDirectory := by
      simp [origin, habsolute]
    have htext : parent.text ≠ "" := by
      rintro htext
      exact hlast (by simp [FilePath.pieces, htext, Text.split, Text.splitChars])
    unfold locate at hl
    split at hl
    · cases hl
    · rw [hafter, ← horigin] at hl
      obtain ⟨d, hd, hdir⟩ := h.walk_split hne (directory_origin parent h.workingDirectory) hl
      exact ensureDirectory_of_isDirectory (by simp [isDirectory, find?, locate, htext, hd, hdir])

end FileTree
end MusicImport
