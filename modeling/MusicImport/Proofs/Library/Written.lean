import MusicImport.Proofs.Library.SafeNames
import MusicImport.Proofs.Library.Taking

/-! Paths that are written under a library, as destinations or with a number. Those with the same components have
the same parent, and placements for such destinations take paths that nobody has. -/
namespace MusicImport

open FilePath

namespace FilePath

variable {p q : FilePath} {name : String} {names : List String}

theorem pieces_injective (h : p.pieces = q.pieces) : p = q := by
  have hchars : Text.splitChars '/' p.text.toList = Text.splitChars '/' q.text.toList := by
    apply List.map_injective_iff.mpr fun _ _ => String.ofList_inj.mp
    exact h
  have htext := congrArg (Text.joinChars '/') hchars
  rw [Text.joinChars_splitChars, Text.joinChars_splitChars] at htext
  exact congrArg FilePath.mk (String.toList_inj.mp htext)

theorem MadeOf.eq_ofNames (h : p.MadeOf names) : p = ofNames names := by
  apply pieces_injective
  rw [h.pieces, (madeOf_ofNames h.ne_nil h.proper).pieces]

theorem components_ne_nil (h : p.text ≠ "") : p.components ≠ [] := by
  obtain ⟨first, rest, hpieces⟩ := List.exists_cons_of_ne_nil p.pieces_ne_nil
  intro hnil
  rw [components_of_pieces hpieces] at hnil
  have hfirst := (List.append_eq_nil_iff.mp hnil).1
  split at hfirst
  · cases hfirst
  next habsolute =>
    -- without a component the first piece is empty, and the only one
    have hempty : first = "" := by
      cases hpiece : Component.ofPiece? true first with
      | some component => simp [hpiece] at hfirst
      | none =>
        unfold Component.ofPiece? at hpiece
        split at hpiece
        · assumption
        · split at hpiece
          · simp at hpiece
          · split at hpiece <;> cases hpiece
    have hrest : rest = [] := by
      cases rest with
      | nil => rfl
      | cons second rest => exact absurd (isAbsolute_iff.mpr (by simp [hpieces, hempty])) habsolute
    have hone : p = ⟨""⟩ := by
      apply pieces_injective
      rw [hpieces, hempty, hrest]
      rfl
    exact h (congrArg text hone)

theorem ofNames_not_absolute (h : ∀ n ∈ names, IsName n) : (ofNames names).isAbsolute = false := by
  by_cases hne : names = []
  · subst hne
    rfl
  · exact (madeOf_ofNames hne h).not_absolute

/-- The path of the folders of a library. -/
def folder (library : FilePath) (folders : List String) : FilePath := library.join (ofNames folders)

/-- A path that is written under a library: one of those that are tried for an entry of its folders. -/
def WrittenUnder (library p : FilePath) : Prop :=
  ∃ folders name, (∀ n ∈ folders, IsName n) ∧ IsName name ∧ Tried ((library.folder folders).join ⟨name⟩) p

variable {library dir : FilePath} {folders : List String}

theorem folder_concat (library : FilePath) (hfolders : ∀ n ∈ folders, IsName n) (hname : IsName name) :
    (library.folder folders).join ⟨name⟩ = library.join (ofNames (folders ++ [name])) := by
  rw [folder, ofNames_concat, join_join (ofNames_not_absolute hfolders) (madeOf_name hname).not_absolute]

theorem components_folder (library : FilePath) (hfolders : ∀ n ∈ folders, IsName n) :
    (library.folder folders).components = library.components ++ folders.map .name := by
  have hname : IsName "x" := ⟨by decide, by decide, by decide, by decide⟩
  have hmade : (ofNames (folders ++ ["x"])).MadeOf (folders ++ ["x"]) :=
    madeOf_ofNames (by simp) (List.forall_mem_append.mpr ⟨hfolders, List.forall_mem_singleton.mpr hname⟩)
  have hjoin := congrArg components (folder_concat library hfolders hname)
  rw [components_join_name hname, components_join hmade, hmade.components, List.map_append,
    ← List.append_assoc] at hjoin
  exact List.append_cancel_right hjoin

/-- What is tried for a destination is the destination itself or a file beside it. -/
theorem tried_cases {dest : FilePath} (h : Tried dest p) : p = dest ∨ ∃ before name other,
    dest.components = before ++ [.name name] ∧ IsName other ∧ p = dest.withFileName other := by
  rcases h with rfl | ⟨n, hn⟩
  · exact .inl rfl
  · right
    unfold numbered at hn
    split at hn
    · cases hn
    · split at hn
      · cases hn
      next name hname =>
        obtain rfl := Except.ok.inj hn
        obtain ⟨before, hcomponents⟩ := fileName?_eq_some.mp hname
        exact ⟨before, name, _, hcomponents, isName_numberedName (slash_not_mem_fileName hname) n, rfl⟩

theorem parent?_of_tried {dest : FilePath} (h : Tried dest p) : p.parent? = dest.parent? := by
  rcases tried_cases h with rfl | ⟨before, name, other, hcomponents, hother, rfl⟩
  · rfl
  · exact parent?_withFileName hcomponents hother

/-- What is tried for an entry is an entry of the same directory. -/
theorem tried_entry (hname : IsName name) (h : Tried (dir.join ⟨name⟩) p) :
    FileTree.IsEntry p ∧ p.parent? = some (dir.leading dir.components) ∧
      ∃ other, IsName other ∧ p.components = dir.components ++ [.name other] := by
  have hparent : p.parent? = some (dir.leading dir.components) := by
    rw [parent?_of_tried h, parent?_join_name hname]
  have hentry := components_join_name hname dir
  rcases tried_cases h with rfl | ⟨before, last, other, hcomponents, hother, rfl⟩
  · exact ⟨FileTree.isEntry_join_name hname dir, hparent, name, hname, hentry⟩
  · rw [hentry] at hcomponents
    obtain ⟨rfl, -⟩ := List.append_inj' hcomponents rfl
    refine ⟨?_, hparent, other, hother, components_withFileName hentry hother⟩
    rw [withFileName_eq hentry]
    exact FileTree.isEntry_join_name hother _

theorem direct_tried {t : FileTree} {dest : FilePath} (hd : t.Direct dest) (hw : t.WellFormed)
    (h : Tried dest p) : t.Direct p := by
  rcases tried_cases h with rfl | ⟨before, name, other, hcomponents, hother, rfl⟩
  · exact hd
  · exact hd.withFileName hw hcomponents hother

theorem direct_ofNames {t : FileTree} (hd : t.Direct library) (hw : t.WellFormed) (hne : names ≠ [])
    (h : ∀ n ∈ names, IsName n) : t.Direct (library.join (ofNames names)) := by
  induction names using List.reverseRecOn with
  | nil => exact absurd rfl hne
  | append_singleton folders name ih =>
    obtain ⟨hfolders, hlast⟩ := List.forall_mem_append.mp h
    have hname : IsName name := List.forall_mem_singleton.mp hlast
    by_cases hnone : folders = []
    · rw [hnone, List.nil_append, ← (madeOf_name hname).eq_ofNames]
      exact hd.join_name hw hname
    · rw [← folder_concat library hfolders hname]
      exact (ih hnone hfolders).join_name hw hname

namespace WrittenUnder

theorem isEntry (h : WrittenUnder library p) : FileTree.IsEntry p := by
  obtain ⟨folders, name, -, hname, htried⟩ := h
  exact (tried_entry hname htried).1

/-- In a library that is direct all that is written is. -/
theorem direct {t : FileTree} (h : WrittenUnder library p) (hd : t.Direct library) (hw : t.WellFormed) :
    t.Direct p := by
  obtain ⟨folders, name, hfolders, hname, htried⟩ := h
  apply direct_tried _ hw htried
  rw [folder_concat library hfolders hname]
  exact direct_ofNames hd hw (by simp) (List.forall_mem_append.mpr ⟨hfolders, List.forall_mem_singleton.mpr hname⟩)

/-- The folders of a path are told by its components, and they tell its parent. -/
theorem parent? (h : WrittenUnder library p) : ∃ folders other, (∀ n ∈ folders, IsName n) ∧
    p.components = library.components ++ folders.map .name ++ [.name other] ∧
    p.parent? = some ((library.folder folders).leading (library.folder folders).components) := by
  obtain ⟨folders, name, hfolders, hname, htried⟩ := h
  obtain ⟨-, hparent, other, -, hcomponents⟩ := tried_entry hname htried
  rw [components_folder library hfolders] at hcomponents
  exact ⟨folders, other, hfolders, hcomponents, hparent⟩

/-- Parents with the same components are spelled alike. -/
theorem parent?_eq (hp : WrittenUnder library p) (hq : WrittenUnder library q)
    (h : p.components.dropLast = q.components.dropLast) : p.parent? = q.parent? := by
  obtain ⟨folders, other, -, hcomponents, hparent⟩ := hp.parent?
  obtain ⟨folders', other', -, hcomponents', hparent'⟩ := hq.parent?
  rw [hcomponents, hcomponents', List.dropLast_concat, List.dropLast_concat,
    List.append_cancel_left_eq] at h
  have hfolders : folders = folders' := List.map_injective_iff.mpr (fun _ _ => Component.name.inj) h
  rw [hparent, hparent', hfolders]

end WrittenUnder

end FilePath

/-- What a template resolves to is written under the library that it is joined to, as is all that is tried
for it. -/
theorem PathTemplate.writtenUnder (t : PathTemplate) (f : TagFields) (source : FilePath) {library p : FilePath}
    (h : Tried (library.join (t.resolve f source)) p) : WrittenUnder library p := by
  have hdot : '.' ∈ t.expand f source ++ '.' :: (source.extension?.getD "flac").toList := by simp
  obtain ⟨names, -, hmade⟩ := safePath_madeOf hdot (by decide)
  obtain ⟨folders, name, rfl⟩ : ∃ folders name, names = folders ++ [name] :=
    ⟨_, _, (List.dropLast_concat_getLast hmade.ne_nil).symm⟩
  have hfolders : ∀ n ∈ folders, IsName n := fun n hn => hmade.proper n (List.mem_append_left _ hn)
  have hname : IsName name := hmade.proper name (by simp)
  refine ⟨folders, name, hfolders, hname, ?_⟩
  rw [folder_concat library hfolders hname, ← hmade.eq_ofNames]
  exact h

namespace FileTree

variable {t t' u : FileTree} {claimed : List FilePath} {strategy : FileStrategy} {x : Transfer}
  {xs : List Transfer} {source dest : FilePath} {pairs : List (FilePath × FilePath)} {q : Place} {c : ByteArray}

/-- A placement between different paths ends at one of those that are tried for its destination. -/
theorem Placed.tried (h : Placed t strategy source dest claimed x t') (hstrategy : strategy ≠ .reference)
    (hother : source.same dest = false) : Tried dest x.dest := by
  cases h with
  | inPlace hin => simp [hstrategy, hother] at hin
  | reused tried => exact tried
  | copied tried => exact tried

theorem Placed.exists? (h : Placed t strategy source dest claimed x t') (hstrategy : strategy ≠ .reference)
    (hother : source.same dest = false) : t'.exists? x.dest = true := by
  cases h with
  | inPlace hin => simp [hstrategy, hother] at hin
  | reused _ _ _ target_read => exact exists?_of_read target_read
  | @copied u target s r c tried absent adds wellFormed source_at content target_at writable =>
    have hput := extends_put_file writable (if s = r then ByteArray.empty else c)
    have hread := read_ok.mpr ⟨r, locate_of_extends hput target_at, contentAt?_put u writable.ne_root _⟩
    exact exists?_of_read hread

/-- Where everything that is claimed is there, a placement takes no path that is claimed. -/
theorem Placed.unclaimed (h : Placed t strategy source dest claimed x t') (hl : t.NoLinks)
    (hstrategy : strategy ≠ .reference) (hother : source.same dest = false)
    (hentry : ∀ p, Tried dest p → IsEntry p) (hclaimed : ∀ p ∈ claimed, IsEntry p ∧ t.exists? p = true) :
    ∀ p ∈ claimed, ¬ p.same x.dest := by
  intro p hp hsame
  cases h with
  | inPlace hin => simp [hstrategy, hother] at hin
  | reused tried unclaimed => exact List.any_eq_false.mp unclaimed p hp (same_comm.mp hsame)
  | copied tried absent adds _ _ _ target_at _ =>
    obtain ⟨hpe, hpt⟩ := hclaimed p hp
    have hpresent := exists?_of_same hl (adds.toExtends.noLinks hl) (same_comm.mp hsame) (hentry _ tried) hpe
      target_at hpt
    simp [absent] at hpresent

/-- From different paths, placements take paths that differ from each other and from all that is claimed. -/
theorem PlacedAll.apart (h : PlacedAll strategy t claimed pairs xs t') (hl : t.NoLinks)
    (hstrategy : strategy ≠ .reference)
    (hpairs : ∀ pair ∈ pairs, pair.1.same pair.2 = false ∧ ∀ p, Tried pair.2 p → IsEntry p)
    (hclaimed : ∀ p ∈ claimed, IsEntry p ∧ t.exists? p = true) :
    (xs.map (·.dest)).Pairwise (fun p q => ¬ p.same q) ∧ ∀ p ∈ claimed, ∀ x ∈ xs, ¬ p.same x.dest := by
  induction h with
  | nil => exact ⟨.nil, fun p _ x hx => by cases hx⟩
  | @cons t u t' claimed source dest x rest xs first _ ih =>
    obtain ⟨hother, hentry⟩ := hpairs _ (.head _)
    have hext := first.copies.toExtends
    have hnext : ∀ p ∈ x.dest :: claimed, IsEntry p ∧ u.exists? p = true := by
      intro p hp
      rcases List.mem_cons.mp hp with rfl | hp
      · exact ⟨hentry _ (first.tried hstrategy hother), first.exists? hstrategy hother⟩
      · exact ⟨(hclaimed p hp).1, exists?_of_extends hext (hclaimed p hp).2⟩
    obtain ⟨hdistinct, hrest⟩ := ih (hext.noLinks hl) (fun pair hp => hpairs pair (.tail _ hp)) hnext
    refine ⟨List.pairwise_cons.mpr ⟨?_, hdistinct⟩, fun p hp y hy => ?_⟩
    · intro q hq
      obtain ⟨y, hy, rfl⟩ := List.mem_map.mp hq
      exact hrest x.dest (.head _) y hy
    · rcases List.mem_cons.mp hy with rfl | hy
      · exact first.unclaimed hl hstrategy hother hentry hclaimed p hp
      · exact hrest p (.tail _ hp) y hy

/-- Every destination is one of those that are tried for the source. -/
theorem PlacedAll.tried (h : PlacedAll strategy t claimed pairs xs t') (hstrategy : strategy ≠ .reference)
    (hpairs : ∀ pair ∈ pairs, pair.1.same pair.2 = false) :
    ∀ x ∈ xs, ∃ pair ∈ pairs, x.source = pair.1 ∧ Tried pair.2 x.dest := by
  induction h with
  | nil =>
    intro x hx
    cases hx
  | cons first _ ih =>
    intro x hx
    rcases List.mem_cons.mp hx with rfl | hx
    · exact ⟨_, .head _, first.source_eq, first.tried hstrategy (hpairs _ (.head _))⟩
    · obtain ⟨pair, hpair, hx⟩ := ih (fun pair hp => hpairs pair (.tail _ hp)) x hx
      exact ⟨pair, .tail _ hpair, hx⟩

/-- Placements at direct destinations keep every file. -/
theorem PlacedAll.keeps (h : PlacedAll strategy t claimed pairs xs t') (hw : t.WellFormed) (hl : t.NoLinks)
    (hd : t.AllDirect pairs) : t.Keeps t' := by
  intro q c hc
  rw [h.copies.content q, hc]
  intro hcopied
  have hn := (h.fresh hw hl hd hcopied).1
  simp [contentAt?, hn] at hc

/-- Each destination gets the content of its source. -/
theorem PlacedAll.contents (h : PlacedAll strategy t claimed pairs xs t') (hw : t.WellFormed) (hl : t.NoLinks)
    (hd : t.AllDirect pairs) : ∀ x ∈ xs, ∀ c, t.read x.source = .ok c → t'.read x.dest = .ok c := by
  induction h with
  | nil =>
    intro x hx
    cases hx
  | @cons t u t' claimed source dest x rest xs first then' ih =>
    have hext := first.copies.toExtends
    have hkept : t.Keeps u := by
      have hone : PlacedAll strategy t claimed [(source, dest)] [x] u := .cons first (.nil _ _)
      exact hone.keeps hw hl fun pair hp => hd pair (List.mem_singleton.mp hp ▸ .head _)
    have hwu := first.copies.wellFormed hw
    have hlu := hext.noLinks hl
    have hdu : u.AllDirect rest := fun pair hp p ht => (hd pair (.tail _ hp) p ht).of_extends hext
    have reads {v w : FileTree} {path : FilePath} {c : ByteArray} (hext : Extends v w) (hkeeps : v.Keeps w)
        (hread : v.read path = .ok c) : w.read path = .ok c := by
      obtain ⟨q, hq, hc⟩ := read_ok.mp hread
      exact read_ok.mpr ⟨q, locate_of_extends hext hq, hkeeps q c hc⟩
    intro y hy c hread
    rcases List.mem_cons.mp hy with rfl | hy
    · rw [first.source_eq] at hread
      obtain ⟨q, hq, hc⟩ := read_ok.mp hread
      obtain ⟨p, hp, hpc⟩ := first.content hq hc fun hcopied hl' => by
        have hn := (first.fresh hw hl (hd _ (.head _)) hcopied hl').1
        simp [contentAt?, hn] at hc
      exact reads then'.copies.toExtends (then'.keeps hwu hlu hdu) (read_ok.mpr ⟨p, hp, hpc⟩)
    · exact ih hwu hlu hdu y hy c (reads hext hkept hread)

end FileTree
end MusicImport
