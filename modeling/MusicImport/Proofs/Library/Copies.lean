import MusicImport.Proofs.Files.Making
import MusicImport.Proofs.Library.Placing

/-! What a run of placements leaves. Every copy is a file that its path leads to, and nothing else has
another content. Where destinations are direct, copies are new files, so that taking them away gives
back the files that were there before. -/
namespace MusicImport
namespace FileTree

variable {t t' u : FileTree} {source dest target path : FilePath} {claimed : List FilePath}
  {p q : Place} {strategy : FileStrategy} {verify : Bool} {x : Transfer} {xs : List Transfer}
  {pairs : List (FilePath × FilePath)} {c : ByteArray} {n : Node}

/-- A copy among transfers leads to a place. -/
def CopiedTo (t : FileTree) (xs : List Transfer) (q : Place) : Prop :=
  ∃ x ∈ xs, x.placement = .copied ∧ t.locate x.dest = .ok q

/-- The second tree has what the first has, and the copies besides. -/
structure Copies (t t' : FileTree) (xs : List Transfer) : Prop extends Extends t t' where
  content : ∀ q, ¬ t'.CopiedTo xs q → t'.contentAt? q = t.contentAt? q
  present : ∀ x ∈ xs, x.placement = .copied →
    ∃ q c, t'.locate x.dest = .ok q ∧ t'.contentAt? q = some c
  wellFormed : t.WellFormed → t'.WellFormed

namespace Copies

theorem refl (t : FileTree) : Copies t t [] := ⟨.refl t, fun _ _ => rfl, by simp, id⟩

/-- What was no copy is none by another name. -/
theorem of_not_copied (t : FileTree) (hx : x.placement ≠ .copied) : Copies t t [x] :=
  ⟨.refl t, fun _ _ => rfl, by simp [hx], id⟩

theorem append {ys : List Transfer} (h : Copies t u xs) (h' : Copies u t' ys) :
    Copies t t' (xs ++ ys) where
  toExtends := h.toExtends.trans h'.toExtends
  content q hq := by
    have hys : ¬ t'.CopiedTo ys q := fun ⟨x, hx, hc, hl⟩ =>
      hq ⟨x, List.mem_append_right xs hx, hc, hl⟩
    have hxs : ¬ u.CopiedTo xs q := fun ⟨x, hx, hc, hl⟩ =>
      hq ⟨x, List.mem_append_left ys hx, hc, locate_of_extends h'.toExtends hl⟩
    rw [h'.content q hys, h.content q hxs]
  present x hx hc := by
    obtain hx | hx := List.mem_append.mp hx
    · obtain ⟨q, c, hl, hq⟩ := h.present x hx hc
      obtain ⟨d, hd⟩ := h'.file q c (contentAt?_eq_some.mp hq)
      exact ⟨q, d, locate_of_extends h'.toExtends hl, contentAt?_eq_some.mpr hd⟩
    · exact h'.present x hx hc
  wellFormed hw := h'.wellFormed (h.wellFormed hw)

end Copies

theorem Placed.copies (h : Placed t strategy source dest claimed x t') : Copies t t' [x] := by
  cases h with
  | inPlace => exact .of_not_copied t (by simp)
  | reused => exact .of_not_copied t (by simp)
  | @copied u target s q c tried absent adds wellFormed source_at content target_at writable =>
    have hput := extends_put_file writable (if s = q then ByteArray.empty else c)
    have hl := locate_of_extends hput target_at
    refine ⟨adds.toExtends.trans hput, fun r hr => ?_, fun y hy _ => ?_, fun hw => ?_⟩
    · have hrq : r ≠ q := by
        rintro rfl
        exact hr ⟨_, .head _, rfl, hl⟩
      rw [contentAt?_put_of_ne u _ hrq, adds.content]
    · obtain rfl := List.mem_singleton.mp hy
      exact ⟨q, _, hl, contentAt?_put u writable.ne_root _⟩
    · have hw := wellFormed hw
      refine hw.put (hw.parent_of_locate target_at) (fun hd => ?_) _
      obtain ⟨d, hn⟩ | ⟨hn, -⟩ := writable <;> simp [hn] at hd

theorem PlacedAll.copies (h : PlacedAll strategy t claimed pairs xs t') : Copies t t' xs := by
  induction h with
  | nil t => exact .refl t
  | cons first _ ih => exact first.copies.append ih

theorem Placed.source_eq (h : Placed t strategy source dest claimed x t') : x.source = source := by
  cases h <;> rfl

theorem PlacedAll.sources (h : PlacedAll strategy t claimed pairs xs t') :
    xs.map (·.source) = pairs.map (·.1) := by
  induction h with
  | nil => rfl
  | cons first _ ih => simp [first.source_eq, ih]

/-- A run is the placements before one of its transfers, this one, and those after it. -/
theorem PlacedAll.split {before after : List Transfer}
    (h : PlacedAll strategy t claimed pairs (before ++ x :: after) t') :
    ∃ u v pair claimed', Copies t u before ∧ Placed u strategy x.source pair claimed' x v ∧
      Copies v t' after := by
  induction before generalizing t claimed pairs with
  | nil =>
    cases h with
    | cons first then' => exact ⟨t, _, _, _, .refl t, first.source_eq ▸ first, then'.copies⟩
  | cons y before ih =>
    cases h with
    | cons first then' =>
      obtain ⟨u, v, pair, claimed', hbefore, hplaced, hafter⟩ := ih then'
      exact ⟨u, v, pair, claimed', first.copies.append hbefore, hplaced, hafter⟩

/-- The content of a source is at its destination, unless the copy has emptied it. -/
theorem Placed.content (h : Placed t strategy source dest claimed x t')
    (hs : t.locate source = .ok q) (hc : t.contentAt? q = some c)
    (hcopy : x.placement = .copied → t'.locate x.dest ≠ .ok q) :
    ∃ p, t'.locate x.dest = .ok p ∧ t'.contentAt? p = some c := by
  cases h with
  | inPlace => exact ⟨q, hs, hc⟩
  | reused tried unclaimed source_read target_read =>
    obtain rfl := Except.ok.inj ((read_ok.mpr ⟨q, hs, hc⟩).symm.trans source_read)
    exact read_ok.mp target_read
  | @copied u target s r d tried absent adds wellFormed source_at content target_at writable =>
    obtain rfl : q = s := by simpa [locate_of_extends adds.toExtends hs] using source_at
    obtain rfl : c = d := by
      rw [← adds.content] at hc
      exact Option.some.inj (hc.symm.trans content)
    have hl := locate_of_extends (extends_put_file writable (if q = r then ByteArray.empty else c))
      target_at
    have hne : q ≠ r := by
      rintro rfl
      exact hcopy rfl hl
    refine ⟨r, hl, ?_⟩
    rw [contentAt?_put u writable.ne_root, if_neg hne]

/-- Where no copy takes the place of a file from before, the destination of a transfer leads to the
content that its source had, until a later copy gets there. -/
theorem PlacedAll.delivers {before after : List Transfer}
    (h : PlacedAll strategy t claimed pairs (before ++ x :: after) t')
    (hnew : ∀ q, t'.CopiedTo (before ++ x :: after) q → t.contentAt? q = none)
    (hread : t.read x.source = .ok c) :
    ∃ p d, t'.locate x.dest = .ok p ∧ t'.contentAt? p = some d ∧
      (¬ t'.CopiedTo after p → d = c) := by
  obtain ⟨q, hq, hc⟩ := read_ok.mp hread
  obtain ⟨u, v, dest, claimed', hbefore, hplaced, hafter⟩ := h.split
  have hv := hplaced.copies.toExtends.trans hafter.toExtends
  have huq : ¬ u.CopiedTo before q := by
    rintro ⟨y, hy, hcopied, hl⟩
    have := hnew q ⟨y, List.mem_append_left _ hy, hcopied, locate_of_extends hv hl⟩
    simp [this] at hc
  have hxq : x.placement = .copied → v.locate x.dest ≠ .ok q := by
    intro hcopied hl
    have := hnew q ⟨x, by simp, hcopied, locate_of_extends hafter.toExtends hl⟩
    simp [this] at hc
  obtain ⟨p, hp, hpc⟩ := hplaced.content (locate_of_extends hbefore.toExtends hq)
    (by rwa [hbefore.content q huq]) hxq
  obtain ⟨d, hd⟩ := hafter.file p c (contentAt?_eq_some.mp hpc)
  refine ⟨p, d, locate_of_extends hafter.toExtends hp, contentAt?_eq_some.mpr hd, fun hno => ?_⟩
  have := hafter.content p hno
  rw [hpc, contentAt?_eq_some.mpr hd] at this
  exact Option.some.inj this

theorem Direct.of_extends (hd : t.Direct path) (h : Extends t t') : t'.Direct path := by
  obtain ⟨before, after, a, hsteps, hu, hw, ha⟩ := hd
  have ha' := h.directory a ha
  refine ⟨before, after, a, hsteps, hu, ?_, ha'⟩
  rw [h.workingDirectory]
  exact walk_transfer h.directory (fun r x => (h.link r x).mpr) (by simp [ha']) hw

/-- What a direct path to nothing leads to when directories were made is nothing. -/
theorem Direct.absent (hd : t.Direct path) (hw : t.WellFormed) (hl : t.NoLinks)
    (h : Extends t u) (hex : t.exists? path = false) (hq : u.locate path = .ok q) :
    t.nodeAt? q = none := by
  cases hn : t.nodeAt? q with
  | none => rfl
  | some n => simp [exists?, find?, hd.locate hw hl h hq hn, hn] at hex

/-- All that is tried for the destinations is direct. -/
def AllDirect (t : FileTree) (pairs : List (FilePath × FilePath)) : Prop :=
  ∀ pair ∈ pairs, ∀ p, Tried pair.2 p → t.Direct p

theorem allDirect_of_not_climbs (hw : t.WellFormed) (h : ∀ pair ∈ pairs, ¬ pair.2.Climbs) :
    t.AllDirect pairs := by
  rintro pair hpair p (rfl | ⟨n, hn⟩)
  · exact direct_of_not_climbs hw (h pair hpair)
  · exact direct_of_not_climbs hw fun hp => h pair hpair (FilePath.climbs_numbered hn hp)

theorem Placed.fresh (h : Placed t strategy source dest claimed x t') (hw : t.WellFormed)
    (hl : t.NoLinks) (hd : ∀ p, Tried dest p → t.Direct p) (hx : x.placement = .copied)
    (hq : t'.locate x.dest = .ok q) : t.nodeAt? q = none ∧ t.isKept q = false := by
  cases h with
  | inPlace => cases hx
  | reused => cases hx
  | @copied u target s r c tried absent adds wellFormed source_at content target_at writable =>
    have hput := extends_put_file writable (if s = r then ByteArray.empty else c)
    obtain rfl : r = q := by simpa [locate_of_extends hput target_at] using hq
    have hn := (hd _ tried).absent hw hl adds.toExtends absent target_at
    obtain ⟨d, hfile⟩ | ⟨-, hk⟩ := writable
    · have hc : t.contentAt? r = some d := by
        rw [← adds.content, contentAt?_eq_some]
        exact hfile
      simp [contentAt?, hn] at hc
    · exact ⟨hn, by rwa [adds.isKept] at hk⟩

theorem PlacedAll.fresh (h : PlacedAll strategy t claimed pairs xs t') (hw : t.WellFormed)
    (hl : t.NoLinks) (hd : t.AllDirect pairs) (hq : t'.CopiedTo xs q) :
    t.nodeAt? q = none ∧ t.isKept q = false := by
  induction h with
  | nil =>
    obtain ⟨x, hx, -⟩ := hq
    cases hx
  | @cons t u t' claimed source dest x rest xs first then' ih =>
    have hext := first.copies.toExtends
    obtain ⟨y, hy, hc, hy'⟩ := hq
    cases hy with
    | head =>
      obtain ⟨r, c, hr, -⟩ := first.copies.present x (.head _) hc
      obtain rfl : r = q := by
        simpa [locate_of_extends then'.copies.toExtends hr] using hy'
      exact first.fresh hw hl (hd _ (.head _)) hc hr
    | tail _ hy =>
      have hd' : u.AllDirect rest := fun pair hp p ht => (hd pair (.tail _ hp) p ht).of_extends hext
      obtain ⟨hn, hk⟩ := ih (first.copies.wellFormed hw) (hext.noLinks hl) hd' ⟨y, hy, hc, hy'⟩
      refine ⟨?_, by rwa [hext.isKept] at hk⟩
      cases ht : t.nodeAt? q with
      | none => rfl
      | some n =>
        obtain ⟨m, hm⟩ := hext.exists_node ht
        simp [hn] at hm

/-- What a copy that broke off leaves: a file where nothing was, with the bytes that have got there of what its
source holds. -/
structure Torn (t t' : FileTree) (source target : FilePath) (q : Place) : Prop extends Extends t t' where
  leads : t'.locate target = .ok q
  new : t.nodeAt? q = none
  part : ∃ c n, (∀ d, t.read source = .ok d → d = c) ∧ t.defectAt? q = some n ∧
    t'.contentAt? q = some (c.extract 0 n)
  others : ∀ r, r ≠ q → t'.contentAt? r = t.contentAt? r

theorem Torn.of_put {s : Place} {m : Nat} (hs : t.locate source = .ok s) (hc : t.contentAt? s = some c)
    (hq : t.locate target = .ok q) (hnew : t.nodeAt? q = none) (hk : t.isKept q = false)
    (hd : t.defectAt? q = some m) : Torn t (t.put q (.file (c.extract 0 m))) source target q := by
  have hw : t.Writable q := .inr ⟨hnew, hk⟩
  have hext := extends_put_file hw (c.extract 0 m)
  have hread : t.read source = .ok c := read_ok.mpr ⟨s, hs, hc⟩
  refine ⟨hext, locate_of_extends hext hq, hnew, ⟨c, m, fun d hd => ?_, hd, ?_⟩, fun r hr => ?_⟩
  · exact Except.ok.inj (hd.symm.trans hread)
  · exact contentAt?_put t hw.ne_root _
  · exact contentAt?_put_of_ne t _ hr

/-- A copy to where no file is does not differ from its source. It fails without a trace, or breaks off. -/
theorem copyVerified_error {e : ImportFailure}
    (h : t.copyVerified source dest verify = (.error e, t'))
    (hn : ∀ q, t.locate dest = .ok q → t.contentAt? q = none) :
    t' = t ∨ e = .io .device ∧ ∃ q, Torn t t' source dest q := by
  unfold copyVerified at h
  split at h
  · cases h
    exact .inl rfl
  next f u _ hcopy =>
    cases h
    obtain rfl | ⟨s, q, c, n, hs, hc, hq, hw, hd, rfl, rfl⟩ := copy_error hcopy
    · exact .inl rfl
    · have hsq : s ≠ q := by
        rintro rfl
        simp [hn s hq] at hc
      obtain ⟨d, hfile⟩ | ⟨hnew, hk⟩ := hw
      · rw [← contentAt?_eq_some, hn q hq] at hfile
        cases hfile
      · rw [if_neg hsq]
        exact .inr ⟨rfl, q, .of_put hs hc hq hnew hk hd⟩
  · simp at h
  next content u hread hcopy =>
    obtain ⟨s, q, c, hs, hc, hq, hw, -, rfl⟩ := copy_ok hcopy
    have hsq : s ≠ q := by
      rintro rfl
      simp [hn s hq] at hc
    have hcontent : content = c := by
      have hc : t.read source = .ok c := read_ok.mpr ⟨s, hs, hc⟩
      split at hread
      · simpa [hc, Except.map] using hread.symm
      · cases hread
    have hcopied : (t.put q (.file c)).read dest = .ok c :=
      read_ok.mpr ⟨q, locate_of_extends (extends_put_file hw c) hq, contentAt?_put t hw.ne_root c⟩
    simp [hsq, hcopied, hcontent, byteArray_beq] at h

/-- What breaks off after directories were made. -/
theorem Torn.after (h : Torn u t' source target q) (hadds : AddsDirectories t u) :
    Torn t t' source target q where
  toExtends := hadds.toExtends.trans h.toExtends
  leads := h.leads
  new := by
    cases hn : t.nodeAt? q with
    | none => rfl
    | some n =>
      obtain ⟨m, hm⟩ := hadds.exists_node hn
      simp [h.new] at hm
  part := by
    obtain ⟨c, n, hsource, hd, hc⟩ := h.part
    refine ⟨c, n, fun d hread => hsource d ?_, by rwa [hadds.defectAt?] at hd, hc⟩
    obtain ⟨s, hs, hsc⟩ := read_ok.mp hread
    exact read_ok.mpr ⟨s, locate_of_extends hadds.toExtends hs, by rwa [hadds.content]⟩
  others r hr := (h.others r hr).trans (hadds.content r)

/-- A placement that fails leaves directories behind at most, or a copy that broke off. -/
theorem place_error {e : ImportFailure}
    (h : t.place source dest strategy verify claimed = (.error e, t')) (hw : t.WellFormed)
    (hl : t.NoLinks) (hd : ∀ p, Tried dest p → t.Direct p) :
    AddsDirectories t t' ∨ e = .io .device ∧ ∃ target q, Tried dest target ∧ Torn t t' source target q := by
  unfold place at h
  split at h
  · simp at h
  · split at h
    · cases h
      exact .inl (.refl t)
    · simp at h
    next target hv =>
      obtain ⟨p, ht, hstops⟩ := vacancy_stopped hv
      cases hstops with
      | absent hex =>
        split at h
        · cases h
          exact .inl (.refl t)
        next u hu =>
          obtain ⟨hadds, hwell⟩ := withParent_ok hu
          split at h
          next v hcopy =>
            cases h
            have hn (q : Place) (hq : u.locate target = .ok q) : u.contentAt? q = none := by
              have hn := (hd target ht).absent hw hl hadds.toExtends hex hq
              rw [hadds.content]
              simp [contentAt?, hn]
            obtain rfl | ⟨rfl, q, htorn⟩ := copyVerified_error hcopy hn
            · exact .inl hadds
            · exact .inr ⟨rfl, target, q, ht, htorn.after hadds⟩
          · simp at h

variable {v : FileTree}

/-- Two trees with the same directories and links, and files at the same places. -/
structure SameShape (t u : FileTree) : Prop where
  there : Extends t u
  back : Extends u t

namespace SameShape

theorem refl (t : FileTree) : SameShape t t := ⟨.refl t, .refl t⟩

theorem trans (h : SameShape t u) (h' : SameShape u v) : SameShape t v :=
  ⟨h.there.trans h'.there, h'.back.trans h.back⟩

theorem locate_iff (h : SameShape t u) {followLast : Bool} :
    u.locate path followLast = .ok q ↔ t.locate path followLast = .ok q :=
  ⟨locate_of_extends h.back, locate_of_extends h.there⟩

theorem plain (h : SameShape t u) {paths : List FilePath} (hp : t.Plain paths) : u.Plain paths :=
  fun path hpath q target hq hlink =>
    hp path hpath q target (h.locate_iff.mp hq) ((h.there.link q target).mp hlink)

end SameShape

/-- Taking copies back removes the files that they lead to, and nothing else. -/
theorem undo_removed (hl : v.NoLinks) (hn : v.nodeAt? q = some n) :
    (v.undo xs).nodeAt? q = none ↔
      n ≠ .directory ∧ v.isKept q = false ∧ v.CopiedTo xs q := by
  have hmem {p : FilePath} : p ∈ (xs.filter (·.placement = .copied)).map (·.dest) ↔
      ∃ x ∈ xs, x.placement = .copied ∧ x.dest = p := by
    simp only [List.mem_map, List.mem_filter, decide_eq_true_eq, and_assoc]
  constructor
  · intro h
    obtain ⟨p, hp, hloc, hd, hk⟩ := removed_of_removeFiles hn h
    obtain ⟨x, hx, hc, rfl⟩ := hmem.mp hp
    exact ⟨hd, hk, x, hx, hc, by rwa [locate_followLast hl] at hloc⟩
  · rintro ⟨hd, hk, x, hx, hc, hloc⟩
    have hfile : ∃ c, v.contentAt? q = some c := by
      cases n with
      | file c => exact ⟨c, contentAt?_eq_some.mpr hn⟩
      | directory => exact absurd rfl hd
      | link target => exact absurd hn (hl q target)
    obtain ⟨c, hcontent⟩ := hfile
    rw [← locate_followLast hl] at hloc
    exact (hl.plain _).removed (hmem.mpr ⟨x, hx, hc, rfl⟩) hloc hcontent hk

/-- What no copy leads to stays as it is. -/
theorem undo_kept (hl : v.NoLinks) (hq : ¬ v.CopiedTo xs q) : (v.undo xs).nodeAt? q = v.nodeAt? q := by
  cases hu : (v.undo xs).nodeAt? q with
  | some n => exact (nodeAt?_of_removeFiles hu).symm
  | none =>
    cases hn : v.nodeAt? q with
    | none => rfl
    | some n => exact absurd ((undo_removed hl hn).mp hu).2.2 hq

/-- After copies are taken back, the files are those from before. Where a file was written to in
the meantime, as in `v`, the new content stays unless the file was a copy. -/
theorem Copies.undo (h : Copies t t' xs) (hs : Extends t' v) (hl : t.NoLinks)
    (hfresh : ∀ q, t'.CopiedTo xs q → t.nodeAt? q = none ∧ t.isKept q = false) :
    Extends t (v.undo xs) ∧ ∀ q, (∀ c, v.contentAt? q = some c → ∃ d, t'.contentAt? q = some d) →
      (v.undo xs).contentAt? q = if t.nodeAt? q = none then none else v.contentAt? q := by
  have hext : Extends t v := h.toExtends.trans hs
  have hlv : v.NoLinks := hext.noLinks hl
  have hcopied {q : Place} (hq : v.CopiedTo xs q) : t'.CopiedTo xs q := by
    obtain ⟨x, hx, hc, hloc⟩ := hq
    obtain ⟨r, -, hr, -⟩ := h.present x hx hc
    obtain rfl : r = q := by simpa [locate_of_extends hs hr] using hloc
    exact ⟨x, hx, hc, hr⟩
  have hkeep {q : Place} {m n : Node} (hm : t.nodeAt? q = some m) (hn : v.nodeAt? q = some n) :
      (v.undo xs).nodeAt? q = some n := by
    cases hu : (v.undo xs).nodeAt? q with
    | some k => rw [← hn, nodeAt?_of_removeFiles hu]
    | none =>
      have hq := (hfresh q (hcopied ((undo_removed hlv hn).mp hu).2.2)).1
      simp [hm] at hq
  constructor
  · refine ⟨?_, ?_, ?_, fun q hq => hkeep hq (hext.directory q hq), fun q c hq => ?_,
      fun q target => ?_⟩
    · rw [← hext.workingDirectory]
      exact removeFiles_workingDirectory v _
    · rw [← hext.readOnly]
      exact removeFiles_readOnly v _
    · rw [← hext.defects]
      exact removeFiles_defects v _
    · obtain ⟨d, hd⟩ := hext.file q c hq
      exact ⟨d, hkeep hq hd⟩
    · exact ⟨fun hq => absurd (nodeAt?_of_removeFiles hq) (hlv q target),
        fun hq => absurd hq (hl q target)⟩
  · intro q hfiles
    split
    next hn =>
      cases hq : (v.undo xs).contentAt? q with
      | none => rfl
      | some c =>
        have hu := contentAt?_eq_some.mp hq
        have hv := nodeAt?_of_removeFiles hu
        -- a file that was not there before is a copy, and copies are gone
        obtain ⟨d, hd⟩ := hfiles c (contentAt?_eq_some.mpr hv)
        have hcop : t'.CopiedTo xs q := by
          apply Classical.byContradiction
          intro hnot
          rw [h.content q hnot] at hd
          simp [contentAt?, hn] at hd
        have hk : v.isKept q = false := by
          rw [hext.isKept]
          exact (hfresh q hcop).2
        obtain ⟨x, hx, hc, hloc⟩ := hcop
        have := (undo_removed hlv hv).mpr ⟨by simp, hk, x, hx, hc, locate_of_extends hs hloc⟩
        rw [this] at hu
        cases hu
    next hn =>
      obtain ⟨m, hm⟩ := Option.ne_none_iff_exists'.mp hn
      obtain ⟨k, hk⟩ := hext.exists_node hm
      simp [contentAt?, hkeep hm hk, hk]

section

variable (hplaced : PlacedAll strategy t claimed pairs xs u) (hw : t.WellFormed) (hl : t.NoLinks)
  (hd : t.AllDirect pairs)

include hplaced hw hl hd

/-- A file that stayed as it was after the copies is the one from before once they are taken back. -/
theorem PlacedAll.undone (hs : Extends u v) (h : v.contentAt? q = u.contentAt? q) :
    (v.undo xs).contentAt? q = t.contentAt? q := by
  have hcopies := hplaced.copies
  have hfresh (r : Place) (hr : u.CopiedTo xs r) := hplaced.fresh hw hl hd hr
  rw [(hcopies.undo hs hl hfresh).2 q fun c hc => ⟨c, by rwa [← h]⟩]
  split
  next hn => simp [contentAt?, hn]
  next hn =>
    rw [h]
    exact hcopies.content q fun hq => hn (hfresh q hq).1

/-- A copy that broke off stays when the copies before it are taken back. -/
theorem Torn.undone (h : Torn u v source target q) : Torn t (v.undo xs) source target q := by
  have hcopies := hplaced.copies
  have hfresh (r : Place) (hr : u.CopiedTo xs r) := hplaced.fresh hw hl hd hr
  have hlv : v.NoLinks := (hcopies.toExtends.trans h.toExtends).noLinks hl
  have hnot : ¬ v.CopiedTo xs q := by
    rintro ⟨x, hx, hc, hq⟩
    obtain ⟨r, d, hr, hrd⟩ := hcopies.present x hx hc
    obtain rfl : r = q := by simpa [locate_of_extends h.toExtends hr] using hq
    simp [contentAt?, h.new] at hrd
  have hkept : (v.undo xs).nodeAt? q = v.nodeAt? q := undo_kept hlv hnot
  obtain ⟨c, n, hsource, hdefect, hpart⟩ := h.part
  have hnode := contentAt?_eq_some.mp hpart
  refine ⟨(hcopies.undo h.toExtends hl hfresh).1, ?_, ?_, ⟨c, n, fun d hread => hsource d ?_, ?_, ?_⟩, ?_⟩
  · refine (hlv.plain _).locate h.leads fun hnone => ?_
    cases (hkept.trans hnode).symm.trans hnone
  · cases hn : t.nodeAt? q with
    | none => rfl
    | some m =>
      obtain ⟨k, hk⟩ := hcopies.exists_node hn
      simp [h.new] at hk
  · obtain ⟨s, hs, hsd⟩ := read_ok.mp hread
    refine read_ok.mpr ⟨s, locate_of_extends hcopies.toExtends hs, ?_⟩
    rwa [hcopies.content s fun hcopied => by simp [contentAt?, (hfresh s hcopied).1] at hsd]
  · rwa [hcopies.defectAt?] at hdefect
  · exact contentAt?_eq_some.mpr (hkept.trans hnode)
  · exact fun r hr => hplaced.undone hw hl hd h.toExtends (h.others r hr)

end

end FileTree
end MusicImport
