import Mathlib.Data.Nat.Find
import MusicImport.Proofs.Files.Making
import MusicImport.Proofs.Library.Copies

/-! Which destination a placement takes. The names that are tried lie beside each other and are all different;
the first that is free is taken, and what happens there follows from what its path leads to once the directory
is made. -/
namespace MusicImport

open FilePath

variable {dest source : FilePath} {name : String} {before : List Component} {m n : Nat}

/-- A number stands between the same two parts of a file name, whatever it is. -/
theorem exists_parts (name : String) : ∃ stem ending : List Char, name.toList = stem ++ ending ∧
    ∀ n : Nat, (numberedName name n).toList =
      stem ++ ' ' :: '(' :: ((toString n).toList ++ ')' :: ending) := by
  have whole (hcut : cutName name = (name, none)) : ∃ stem ending : List Char,
      name.toList = stem ++ ending ∧ ∀ n : Nat, (numberedName name n).toList =
        stem ++ ' ' :: '(' :: ((toString n).toList ++ ')' :: ending) := by
    refine ⟨name.toList, [], by simp, fun n => ?_⟩
    simp [numberedName, hcut]
  cases hlast : Text.cutLast? '.' name.toList with
  | none => exact whole (by simp [cutName, hlast])
  | some parts =>
    obtain ⟨stem, ext⟩ := parts
    by_cases hstem : stem = []
    · exact whole (by simp [cutName, hlast, hstem])
    · have hcut : cutName name = (String.ofList stem, some (String.ofList ext)) := by
        simp [cutName, hlast, hstem]
      refine ⟨stem, '.' :: ext, cutLast?_eq hlast, fun n => ?_⟩
      simp [numberedName, hcut]

/-- The names that are tried for one name are all different. -/
theorem probeName_injective (h : probeName name m = probeName name n) : m = n := by
  obtain ⟨stem, ending, hname, hnumbered⟩ := exists_parts name
  have hlength (k : Nat) : name ≠ numberedName name k := by
    intro heq
    have htext := hnumbered k
    rw [← heq, hname, List.append_cancel_left_eq] at htext
    have := congrArg List.length htext
    simp only [List.length_cons, List.length_append] at this
    omega
  cases m with
  | zero =>
    cases n with
    | zero => rfl
    | succ n => exact absurd h (hlength (n + 1))
  | succ m =>
    cases n with
    | zero => exact absurd h.symm (hlength (m + 1))
    | succ n =>
      have htexts := congrArg String.toList h
      rw [probeName, probeName, hnumbered, hnumbered, List.append_cancel_left_eq] at htexts
      simp only [List.cons.injEq, true_and, List.append_cons _ ')' ending,
        List.append_cancel_right_eq] at htexts
      exact toList_toString_injective htexts

theorem isName_numberedName (h : '/' ∉ name.toList) (n : Nat) : IsName (numberedName name n) := by
  obtain ⟨stem, ending, hname, hnumbered⟩ := exists_parts name
  have hparen : '(' ∈ (numberedName name n).toList := by simp [hnumbered]
  have hother (s : String) (hs : '(' ∉ s.toList) : numberedName name n ≠ s := by
    intro heq
    rw [heq] at hparen
    exact hs hparen
  refine ⟨hother "" (by decide), hother "." (by decide), hother ".." (by decide), ?_⟩
  have hdigits := slash_not_mem_digits n
  rw [hname] at h
  rw [hnumbered]
  simp only [List.mem_append, List.mem_cons, not_or] at h ⊢
  exact ⟨h.1, by decide, by decide, hdigits, by decide, h.2⟩

theorem probe_succ (h : dest.components = before ++ [.name name]) (n : Nat) :
    IsName (probeName name (n + 1)) ∧ probe dest (n + 1) = dest.withFileName (probeName name (n + 1)) := by
  have hname : dest.fileName? = some name := fileName?_eq_some.mpr ⟨before, h⟩
  refine ⟨isName_numberedName (slash_not_mem_fileName hname) (n + 1), ?_⟩
  rw [probe, hname, Option.getD_some]

theorem components_probe (h : dest.components = before ++ [.name name]) (n : Nat) :
    (probe dest n).components = before ++ [.name (probeName name n)] := by
  cases n with
  | zero => exact h
  | succ n =>
    obtain ⟨hname, hprobe⟩ := probe_succ h n
    rw [hprobe, components_withFileName h hname]

theorem parent?_probe (h : dest.components = before ++ [.name name]) (n : Nat) :
    (probe dest n).parent? = dest.parent? := by
  cases n with
  | zero => rfl
  | succ n =>
    obtain ⟨hname, hprobe⟩ := probe_succ h n
    rw [hprobe, parent?_withFileName h hname]

/-- No path is tried twice, however it is spelled. -/
theorem probe_injective (h : dest.components = before ++ [.name name])
    (hsame : (probe dest m).same (probe dest n)) : m = n := by
  rw [same_iff, components_probe h, components_probe h, List.append_cancel_left_eq] at hsame
  exact probeName_injective (by simpa using hsame)

namespace FileTree

variable {t t' u : FileTree} {claimed : List FilePath} {strategy : FileStrategy} {verify : Bool}
  {x : Transfer} {s d q : Place} {c : ByteArray} {p : FilePath}

/-- A destination whose directory is there or can be made, and takes new files. -/
structure HasRoom (t : FileTree) (dest : FilePath) (name : String) (u : FileTree) (d : Place) : Prop where
  made : t.withParent dest = .ok u
  leads : u.locate dest = .ok (d ++ [name])
  open' : d ∉ u.readOnly

namespace HasRoom

theorem withParent_probe (h : t.HasRoom dest name u d) (hname : dest.components = before ++ [.name name])
    (n : Nat) : t.withParent (probe dest n) = .ok u := by
  have hmade := h.made
  unfold withParent at hmade ⊢
  rwa [parent?_probe hname]

/-- The paths that are tried lead to names in one directory. -/
theorem locate_probe (h : t.HasRoom dest name u d) (hl : u.NoLinks)
    (hname : dest.components = before ++ [.name name]) (n : Nat) :
    u.locate (probe dest n) = .ok (d ++ [probeName name n]) := by
  cases n with
  | zero => exact h.leads
  | succ n =>
    obtain ⟨hproper, hprobe⟩ := probe_succ hname n
    have hbeside := locate_withFileName hl hname hproper h.leads
    rwa [List.dropLast_concat, ← hprobe] at hbeside

end HasRoom

/-- A path that may be taken for a content: nothing is there, or this content, and nobody claims it. -/
def Free (t : FileTree) (c : ByteArray) (claimed : List FilePath) (p : FilePath) : Prop :=
  t.exists? p = false ∨ isClaimed claimed p = false ∧ t.read p = .ok c

theorem sameContent_eq (hs : t.read source = .ok c) {e : ByteArray} (hp : t.read p = .ok e) :
    t.sameContent source p = .ok (c == e) := by
  simp [sameContent, hs, hp, Bind.bind, Except.bind, Pure.pure, Except.pure]

/-- Without links what is there is a directory or can be read. -/
theorem read_of_exists? (hl : t.NoLinks) (hp : t.exists? p = true) (hd : t.isDirectory p = false) :
    ∃ e, t.read p = .ok e := by
  unfold exists? at hp
  obtain ⟨n, hn⟩ := Option.isSome_iff_exists.mp hp
  have hfound := hn
  unfold find? at hfound
  split at hfound
  next q hq =>
    cases n with
    | file e => exact ⟨e, read_ok.mpr ⟨q, hq, contentAt?_eq_some.mpr hfound⟩⟩
    | directory => simp [isDirectory, hn] at hd
    | link target => exact absurd hfound (hl q target)
  · cases hfound

theorem passed_of_not_free (hl : t.NoLinks) (hs : t.read source = .ok c) (hd : t.isDirectory p = false)
    (h : ¬ t.Free c claimed p) : t.Passed source claimed p := by
  have hpresent : t.exists? p = true := by
    rw [← Bool.not_eq_false]
    intro habsent
    exact h (.inl habsent)
  refine ⟨hpresent, ?_⟩
  cases hclaimed : isClaimed claimed p with
  | true => exact .inl rfl
  | false =>
    right
    obtain ⟨e, he⟩ := read_of_exists? hl hpresent hd
    have hne : (c == e) = false := by
      rw [Bool.eq_false_iff]
      intro hsame
      rw [byteArray_beq.mp hsame] at h
      exact h (.inr ⟨hclaimed, he⟩)
    rw [sameContent_eq hs he, hne]

/-- One of the first numbers with a property is the very first. -/
theorem exists_first {P : Nat → Prop} {bound : Nat} (h : ∃ n < bound, P n) :
    ∃ n < bound, P n ∧ ∀ m < n, ¬ P m := by
  classical
  obtain ⟨hbound, hP⟩ := Nat.find_spec h
  refine ⟨Nat.find h, hbound, hP, fun m hm hPm => ?_⟩
  exact Nat.find_min h hm ⟨by omega, hPm⟩

theorem place_of_vacancy (hstrategy : strategy ≠ .reference) (hother : source.same dest = false)
    (hv : t.vacancy source dest claimed 1001 0 dest = .ok (.absent p)) (hu : t.withParent p = .ok u) :
    t.place source dest strategy verify claimed = match u.copyVerified source p verify with
      | (.error e, v) => (.error e, v)
      | (.ok (), v) => (.ok ⟨source, p, .copied⟩, v) := by
  unfold withParent at hu
  unfold place
  rw [if_neg (by simp [hstrategy, hother]), hv]
  rcases hcopy : u.copyVerified source p verify with ⟨e | _, v⟩
  all_goals
    cases hparent : p.parent? with
    | none =>
      rw [hparent] at hu
      cases hu
      simp only [hparent, hcopy]
    | some parent =>
      rw [hparent] at hu
      dsimp only at hu
      simp only [hparent, hu, hcopy]

/-- A placement that takes a path takes the first at which the search stops. -/
theorem place_stopped (hstrategy : strategy ≠ .reference) (hother : source.same dest = false)
    (h : t.place source dest strategy verify claimed = (.ok x, t')) :
    ∃ n < 1000, x.dest = probe dest n ∧ (∀ m < n, t.Passed source claimed (probe dest m)) ∧
      ∃ v, t.Stops source claimed (probe dest n) v := by
  unfold place at h
  rw [if_neg (by simp [hstrategy, hother])] at h
  cases hv : t.vacancy source dest claimed 1001 0 dest with
  | error e => simp [hv] at h
  | ok v =>
    obtain ⟨n, -, hn, -, hstops, hbefore⟩ := vacancy_ok (n := 0) hv rfl (by omega) (.inl rfl)
    refine ⟨n, hn, ?_, fun m hm => hbefore m (Nat.zero_le m) hm, v, hstops⟩
    rw [hv] at h
    cases hstops with
    | holds =>
      cases h
      rfl
    | absent =>
      simp only at h
      split at h
      · simp at h
      · split at h
        · simp at h
        · cases h
          rfl

/-- A placement takes a claimed path exactly if nothing is there and the search gets to it: whether a path is
claimed is asked only where something is. -/
theorem place_claimed_iff (hstrategy : strategy ≠ .reference) (hother : source.same dest = false)
    (h : t.place source dest strategy verify claimed = (.ok x, t')) :
    isClaimed claimed x.dest = true ↔ ∃ n < 1000, t.exists? (probe dest n) = false ∧
      isClaimed claimed (probe dest n) = true ∧ ∀ m < n, t.Passed source claimed (probe dest m) := by
  obtain ⟨n, hn, hdest, hbefore, v, hstops⟩ := place_stopped hstrategy hother h
  rw [hdest]
  constructor
  · intro hclaimed
    refine ⟨n, hn, ?_, hclaimed, hbefore⟩
    cases hstops with
    | absent habsent => exact habsent
    | holds _ hunclaimed => simp [hunclaimed] at hclaimed
  · rintro ⟨k, -, habsent, hclaimed, hk⟩
    rcases Nat.lt_trichotomy n k with hlt | rfl | hlt
    · exact absurd (hk n hlt) hstops.not_passed
    · exact hclaimed
    · have hpresent := (hbefore k hlt).1
      simp [habsent] at hpresent

/-- A file to import, and a library without a directory. -/
def vacantTree : FileTree :=
  { nodes := [(["in"], .directory), (["in", "a.flac"], .file "one".toUTF8)] }

theorem vacant_taken : ∃ x t',
    vacantTree.place ⟨"in/a.flac"⟩ ⟨"lib/A.flac"⟩ .copy false [⟨"lib/A.flac"⟩] = (.ok x, t') ∧
      x.dest = ⟨"lib/A.flac"⟩ := by
  have htaken : (vacantTree.place ⟨"in/a.flac"⟩ ⟨"lib/A.flac"⟩ .copy false [⟨"lib/A.flac"⟩]).1.toOption.map
      (·.dest) = some ⟨"lib/A.flac"⟩ := by decide +kernel
  rcases h : vacantTree.place ⟨"in/a.flac"⟩ ⟨"lib/A.flac"⟩ .copy false [⟨"lib/A.flac"⟩] with ⟨e | x, t'⟩
  · simp [h, Except.toOption] at htaken
  · exact ⟨x, t', rfl, by simpa [h, Except.toOption] using htaken⟩

/-- The path of a row whose file is gone is taken for another file. -/
theorem place_claimed_iff_vacant : ∃ x t',
    vacantTree.place ⟨"in/a.flac"⟩ ⟨"lib/A.flac"⟩ .copy false [⟨"lib/A.flac"⟩] = (.ok x, t') ∧
      ∃ n < 1000, vacantTree.exists? (probe ⟨"lib/A.flac"⟩ n) = false ∧
        isClaimed [⟨"lib/A.flac"⟩] (probe ⟨"lib/A.flac"⟩ n) = true ∧
        ∀ m < n, vacantTree.Passed ⟨"in/a.flac"⟩ [⟨"lib/A.flac"⟩] (probe ⟨"lib/A.flac"⟩ m) := by
  obtain ⟨x, t', h, hdest⟩ := vacant_taken
  refine ⟨x, t', h, (place_claimed_iff (by decide) (by decide) h).mp ?_⟩
  rw [hdest]
  decide

/-- A placement may take a path that is claimed. -/
theorem claimed_path_taken : ¬ ∀ (t t' : FileTree) (source dest : FilePath) (strategy : FileStrategy)
    (verify : Bool) (claimed : List FilePath) (x : Transfer), strategy ≠ .reference →
      source.same dest = false → t.place source dest strategy verify claimed = (.ok x, t') →
        isClaimed claimed x.dest = false := by
  intro hall
  obtain ⟨x, t', h, hdest⟩ := vacant_taken
  have hunclaimed := hall _ _ _ _ _ _ _ _ (by decide) (by decide) h
  rw [hdest] at hunclaimed
  revert hunclaimed
  decide

theorem Direct.withParent (hd : t.Direct p) (hw : t.WellFormed) (hl : t.NoLinks)
    (hu : t.withParent p = .ok u) (hq : u.locate p = .ok q) (hn : t.nodeAt? q = none) :
    u.nodeAt? q = none := by
  unfold FileTree.withParent at hu
  cases hparent : p.parent? with
  | none =>
    rw [hparent] at hu
    cases hu
    exact hn
  | some parent =>
    rw [hparent] at hu
    exact hd.not_made hw hl hparent hu hq hn

theorem direct_probe (hd : t.Direct dest) (hw : t.WellFormed) (hname : dest.components = before ++ [.name name])
    (n : Nat) : t.Direct (probe dest n) := by
  cases n with
  | zero => exact hd
  | succ n =>
    obtain ⟨hother, hprobe⟩ := probe_succ hname n
    rw [hprobe]
    exact hd.withFileName hw hname hother

/-- Where a copy takes nothing away: nothing is there, or a file that already is what the copy leaves. That is
nothing where a file is copied onto itself. -/
def LeftAlone (u : FileTree) (s q : Place) (c : ByteArray) : Prop :=
  u.nodeAt? q = none ∨ u.contentAt? q = some (if s = q then ByteArray.empty else c)

/-- A copy to where nothing is breaks off where the device fails. -/
theorem copyVerified_breaks {m : Nat} (hs : u.locate source = .ok s) (hc : u.contentAt? s = some c)
    (hq : u.locate p = .ok q) (hnew : u.nodeAt? q = none) (hk : u.isKept q = false)
    (hd : u.defectAt? q = some m) :
    u.copyVerified source p verify = (.error (.io .device), u.put q (.file (c.extract 0 m))) := by
  have hsq : s ≠ q := by
    rintro rfl
    simp [contentAt?, hnew] at hc
  have hcopy := Writable.copy_breaks (.inr ⟨hnew, hk⟩) hs hc hq hd
  rw [if_neg hsq] at hcopy
  unfold copyVerified
  rw [hcopy]
  cases verify with
  | false => rfl
  | true => simp [read_ok.mpr ⟨s, hs, hc⟩, Except.map]

/-- The files of a tree with their contents are in another one. -/
def Keeps (t t' : FileTree) : Prop := ∀ q c, t.contentAt? q = some c → t'.contentAt? q = some c

/-- A copy that keeps its content and every file is one to where it takes nothing away and the device does not
fail. -/
theorem copied_iff (hs : u.locate source = .ok s) (hc : u.contentAt? s = some c)
    (hq : u.locate p = .ok q) (hk : u.isKept q = false) :
    (∃ t', u.copyVerified source p verify = (.ok (), t') ∧ t'.read p = .ok c ∧ u.Keeps t') ↔
      u.defectAt? q = none ∧ u.LeftAlone s q c := by
  constructor
  · rintro ⟨t', hcopy, hread, hkeeps⟩
    obtain ⟨s', q', c', hs', hc', hq', hwritable, hsound, rfl⟩ := copy_ok (copyVerified_ok hcopy)
    obtain rfl : s = s' := Except.ok.inj (hs.symm.trans hs')
    obtain rfl : q = q' := Except.ok.inj (hq.symm.trans hq')
    obtain rfl : c = c' := Option.some.inj (hc.symm.trans hc')
    refine ⟨hsound, ?_⟩
    rcases hwritable with ⟨e, he⟩ | ⟨hn, -⟩
    · right
      have hold := hkeeps q e (contentAt?_eq_some.mpr he)
      rw [contentAt?_put u (Writable.ne_root (.inl ⟨e, he⟩))] at hold
      rw [contentAt?_eq_some, he, Option.some.inj hold]
    · exact .inl hn
  · rintro ⟨hsound, halone⟩
    have hwritable : u.Writable q := by
      rcases halone with hn | he
      · exact .inr ⟨hn, hk⟩
      · exact .inl ⟨_, contentAt?_eq_some.mp he⟩
    have hempty : s = q → ByteArray.empty = c := by
      rintro rfl
      rcases halone with hn | he
      · simp [contentAt?, hn] at hc
      · rw [if_pos rfl, hc] at he
        exact (Option.some.inj he).symm
    have hleft : (if s = q then ByteArray.empty else c) = c := by
      split
      next hsq => exact hempty hsq
      · rfl
    have hcopy := hwritable.copy hs hc hq hsound
    rw [hleft] at hcopy
    have hback : (u.put q (.file c)).read p = .ok c :=
      read_ok.mpr ⟨q, locate_of_extends (extends_put_file hwritable c) hq, contentAt?_put u hwritable.ne_root c⟩
    refine ⟨u.put q (.file c), ?_, hback, fun r e hr => ?_⟩
    · have hread : u.read source = .ok c := read_ok.mpr ⟨s, hs, hc⟩
      unfold copyVerified
      rw [hcopy]
      cases verify with
      | false => rfl
      | true => simp [hread, hback, Except.map, byteArray_beq]
    · by_cases hrq : r = q
      · subst hrq
        rw [contentAt?_put u hwritable.ne_root]
        rcases halone with hn | he
        · simp [contentAt?, hn] at hr
        · rw [hr, hleft] at he
          rw [Option.some.inj he]
      · rwa [contentAt?_put_of_ne u _ hrq]

section

variable (hstrategy : strategy ≠ .reference) (hother : source.same dest = false) (hl : t.NoLinks)
  (hs : t.locate source = .ok s) (hc : t.contentAt? s = some c) (hname : dest.fileName? = some name)
  (hfiles : ∀ n < 1000, t.isDirectory (probe dest n) = false)

include hl hs hc hfiles in
theorem passed_probe (hn : n < 1000) (hfree : ¬ t.Free c claimed (probe dest n)) :
    t.Passed source claimed (probe dest n) :=
  passed_of_not_free hl (read_ok.mpr ⟨s, hs, hc⟩) (hfiles n hn) hfree

include hstrategy hother hl hs hc hname hfiles

theorem place_outOfNames (hnone : ∀ n < 1000, ¬ t.Free c claimed (probe dest n)) :
    t.place source dest strategy verify claimed = (.error (outOfNames dest), t) := by
  have hv := vacancy_outOfNames hname fun m hm => passed_probe hl hs hc hfiles hm (hnone m hm)
  unfold place
  rw [if_neg (by simp [hstrategy, hother]), hv]

/-- Where the first free path holds the content already, nothing is copied. -/
theorem place_present (hn : n < 1000) (hfree : t.Free c claimed (probe dest n))
    (hfirst : ∀ m < n, ¬ t.Free c claimed (probe dest m)) (hpresent : t.exists? (probe dest n) = true) :
    t.place source dest strategy verify claimed = (.ok ⟨source, probe dest n, .alreadyPresent⟩, t) := by
  obtain ⟨hunclaimed, hread⟩ := hfree.resolve_left (by simp [hpresent])
  have hsame : t.sameContent source (probe dest n) = .ok true := by
    rw [sameContent_eq (read_ok.mpr ⟨s, hs, hc⟩) hread, byteArray_beq.mpr rfl]
  have hbefore (m : Nat) (hm : m < n) := passed_probe hl hs hc hfiles (Nat.lt_trans hm hn) (hfirst m hm)
  have hv := vacancy_stops hname hn hbefore (.holds hpresent hunclaimed hsame)
  unfold place
  rw [if_neg (by simp [hstrategy, hother]), hv]

/-- Where nothing is at the first free path, the file is copied to where this leads once its directory is made. -/
theorem place_absent (hroom : t.HasRoom dest name u d) (hn : n < 1000)
    (hfirst : ∀ m < n, ¬ t.Free c claimed (probe dest m)) (habsent : t.exists? (probe dest n) = false) :
    (∃ t', t.place source dest strategy verify claimed = (.ok ⟨source, probe dest n, .copied⟩, t') ∧
        t'.read (probe dest n) = .ok c ∧ t.Keeps t') ↔
      t.defectAt? (d ++ [probeName name n]) = none ∧ u.LeftAlone s (d ++ [probeName name n]) c := by
  obtain ⟨before, hcomponents⟩ := fileName?_eq_some.mp hname
  have hadds := (withParent_ok hroom.made).1
  have hbefore (m : Nat) (hm : m < n) := passed_probe hl hs hc hfiles (Nat.lt_trans hm hn) (hfirst m hm)
  have hv := vacancy_stops hname hn hbefore (.absent habsent)
  have hq := hroom.locate_probe (hadds.toExtends.noLinks hl) hcomponents n
  have hk : u.isKept (d ++ [probeName name n]) = false := by simp [isKept, hroom.open']
  have hcopied : (∃ t', u.copyVerified source (probe dest n) verify = (.ok (), t') ∧
      t'.read (probe dest n) = .ok c ∧ u.Keeps t') ↔
      u.defectAt? (d ++ [probeName name n]) = none ∧ u.LeftAlone s (d ++ [probeName name n]) c :=
    copied_iff (locate_of_extends hadds.toExtends hs) (by rwa [hadds.content]) hq hk
  have hkeeps (t' : FileTree) : t.Keeps t' ↔ u.Keeps t' := by simp only [Keeps, hadds.content]
  rw [← hadds.defectAt?, ← hcopied, place_of_vacancy hstrategy hother hv (hroom.withParent_probe hcomponents n)]
  simp only [hkeeps]
  apply exists_congr
  intro t'
  apply and_congr_left'
  rcases u.copyVerified source (probe dest n) verify with ⟨e | _, v⟩
  · simp
  · simp

/-- Where the device fails, a copy to a direct destination leaves a part of its content there and fails. -/
theorem place_breaks (hw : t.WellFormed) (hdirect : t.Direct dest) (hroom : t.HasRoom dest name u d)
    (hn : n < 1000) (hfirst : ∀ m < n, ¬ t.Free c claimed (probe dest m))
    (habsent : t.exists? (probe dest n) = false) {m : Nat}
    (hbreaks : t.defectAt? (d ++ [probeName name n]) = some m) :
    ∃ t', t.place source dest strategy verify claimed = (.error (.io .device), t') ∧
      Torn t t' source (probe dest n) (d ++ [probeName name n]) := by
  obtain ⟨before, hcomponents⟩ := fileName?_eq_some.mp hname
  have hadds := (withParent_ok hroom.made).1
  have hbefore (m : Nat) (hm : m < n) := passed_probe hl hs hc hfiles (Nat.lt_trans hm hn) (hfirst m hm)
  have hv := vacancy_stops hname hn hbefore (.absent habsent)
  have hmade := hroom.withParent_probe hcomponents n
  have hq := hroom.locate_probe (hadds.toExtends.noLinks hl) hcomponents n
  have hk : u.isKept (d ++ [probeName name n]) = false := by simp [isKept, hroom.open']
  have hprobe := direct_probe hdirect hw hcomponents n
  have hnew := hprobe.withParent hw hl hmade hq (hprobe.absent hw hl hadds.toExtends habsent hq)
  have hsource : u.locate source = .ok s := locate_of_extends hadds.toExtends hs
  have hcontent : u.contentAt? s = some c := by rwa [hadds.content]
  have hbroken : u.copyVerified source (probe dest n) verify = (.error (.io .device), _) :=
    copyVerified_breaks hsource hcontent hq hnew hk (by rwa [hadds.defectAt?])
  refine ⟨_, ?_, (Torn.of_put hsource hcontent hq hnew hk (by rwa [hadds.defectAt?])).after hadds⟩
  rw [place_of_vacancy hstrategy hother hv hmade, hbroken]

end

/-- A direct destination does not lead to another file. -/
theorem Direct.leftAlone (hd : t.Direct dest) (hw : t.WellFormed) (hl : t.NoLinks)
    (hname : dest.fileName? = some name) (hroom : t.HasRoom dest name u d)
    (habsent : t.exists? (probe dest n) = false) : u.LeftAlone s (d ++ [probeName name n]) c := by
  obtain ⟨before, hcomponents⟩ := fileName?_eq_some.mp hname
  have hadds := (withParent_ok hroom.made).1
  have hq := hroom.locate_probe (hadds.toExtends.noLinks hl) hcomponents n
  have hprobe := direct_probe hd hw hcomponents n
  have hnothing := hprobe.absent hw hl hadds.toExtends habsent hq
  exact .inl (hprobe.withParent hw hl (hroom.withParent_probe hcomponents n) hq hnothing)

/-- From a source that can be read to a destination with room, a placement tries the destination and its numbered
alternatives in order, each once. It fails if none of the first thousand is free, else it takes the first that is:
where the content is already, nothing changes, and where nothing was, the file is copied. The copy is whole and
keeps every file exactly if the device does not fail there and the path, once its directory is made, does not lead
to another file. That of a direct destination does not, so that a copy that breaks off there leaves a part of the
content in a new file and every other file as it was. -/
theorem place_probes (hstrategy : strategy ≠ .reference) (hother : source.same dest = false) (hl : t.NoLinks)
    (hs : t.locate source = .ok s) (hc : t.contentAt? s = some c) (hname : dest.fileName? = some name)
    (hroom : t.HasRoom dest name u d) (hfiles : ∀ n < 1000, t.isDirectory (probe dest n) = false) :
    (∀ m n, (probe dest m).same (probe dest n) → m = n) ∧
    ((∀ n < 1000, ¬ t.Free c claimed (probe dest n)) ∧
        t.place source dest strategy verify claimed = (.error (outOfNames dest), t) ∨
      ∃ n < 1000, t.Free c claimed (probe dest n) ∧ (∀ m < n, ¬ t.Free c claimed (probe dest m)) ∧
        (t.exists? (probe dest n) = true →
          t.place source dest strategy verify claimed = (.ok ⟨source, probe dest n, .alreadyPresent⟩, t)) ∧
        (t.exists? (probe dest n) = false →
          ((∃ t', t.place source dest strategy verify claimed = (.ok ⟨source, probe dest n, .copied⟩, t') ∧
              t'.read (probe dest n) = .ok c ∧ t.Keeps t') ↔
            t.defectAt? (d ++ [probeName name n]) = none ∧ u.LeftAlone s (d ++ [probeName name n]) c) ∧
          (t.WellFormed → t.Direct dest → u.LeftAlone s (d ++ [probeName name n]) c ∧
            (t.defectAt? (d ++ [probeName name n]) ≠ none →
              ∃ t', t.place source dest strategy verify claimed = (.error (.io .device), t') ∧
                Torn t t' source (probe dest n) (d ++ [probeName name n]))))) := by
  obtain ⟨before, hcomponents⟩ := fileName?_eq_some.mp hname
  refine ⟨fun m n => probe_injective hcomponents, ?_⟩
  by_cases hsome : ∃ n < 1000, t.Free c claimed (probe dest n)
  · right
    obtain ⟨n, hn, hfree, hfirst⟩ := exists_first hsome
    refine ⟨n, hn, hfree, hfirst, ?_, ?_⟩
    · intro hpresent
      exact place_present hstrategy hother hl hs hc hname hfiles hn hfree hfirst hpresent
    · intro habsent
      refine ⟨place_absent hstrategy hother hl hs hc hname hfiles hroom hn hfirst habsent, ?_⟩
      intro hw hdirect
      refine ⟨hdirect.leftAlone hw hl hname hroom habsent, fun hdefect => ?_⟩
      obtain ⟨m, hm⟩ := Option.ne_none_iff_exists'.mp hdefect
      exact place_breaks hstrategy hother hl hs hc hname hfiles hw hdirect hroom hn hfirst habsent hm
  · left
    have hnone : ∀ n < 1000, ¬ t.Free c claimed (probe dest n) := fun n hn hfree => hsome ⟨n, hn, hfree⟩
    exact ⟨hnone, place_outOfNames hstrategy hother hl hs hc hname hfiles hnone⟩

/-- Two different files with one name. -/
def numberedTree : FileTree :=
  { nodes := [(["in"], .directory), (["in", "a.flac"], .file "new".toUTF8), (["lib"], .directory),
      (["lib", "a.flac"], .file "old".toUTF8)] }

theorem numberedTree_noLinks : numberedTree.NoLinks := noLinks_of_nodes (by decide)

theorem numberedTree_hasRoom : numberedTree.HasRoom ⟨"lib/a.flac"⟩ "a.flac" numberedTree ["lib"] :=
  ⟨rfl, by decide, by decide⟩

/-- No name that is tried is that of a directory. -/
theorem numberedTree_files (n : Nat) : numberedTree.isDirectory (probe ⟨"lib/a.flac"⟩ n) = false := by
  have hname : (FilePath.mk "lib/a.flac").components = [.name "lib"] ++ [.name "a.flac"] := by decide
  have hlocate := numberedTree_hasRoom.locate_probe numberedTree_noLinks hname n
  have hnode : numberedTree.nodeAt? ["lib", probeName "a.flac" n] ≠ some .directory := by
    intro hdirectory
    simpa [numberedTree] using node_mem (by simp) hdirectory
  unfold isDirectory find?
  rw [hlocate]
  split
  next hdirectory => exact absurd hdirectory hnode
  · rfl

/-- The second file gets a number. -/
theorem place_probes_numbered : ∃ t',
    numberedTree.place ⟨"in/a.flac"⟩ ⟨"lib/a.flac"⟩ .copy true [] =
        (.ok ⟨⟨"in/a.flac"⟩, ⟨"lib/a (1).flac"⟩, .copied⟩, t') ∧
      t'.read ⟨"lib/a (1).flac"⟩ = .ok "new".toUTF8 ∧ numberedTree.Keeps t' := by
  have hfirst : ¬ numberedTree.Free "new".toUTF8 [] (probe ⟨"lib/a.flac"⟩ 0) := by
    rintro (habsent | ⟨-, hread⟩)
    · revert habsent
      decide
    · have hcontent := congrArg Except.toOption hread
      revert hcontent
      decide
  have hsecond : numberedTree.exists? (probe ⟨"lib/a.flac"⟩ 1) = false := by decide
  have hs : numberedTree.locate ⟨"in/a.flac"⟩ = .ok ["in", "a.flac"] := by decide
  have hc : numberedTree.contentAt? ["in", "a.flac"] = some "new".toUTF8 := by decide
  have hplaced : (∀ n < 1000, ¬ numberedTree.Free "new".toUTF8 [] (probe ⟨"lib/a.flac"⟩ n)) ∧
      numberedTree.place ⟨"in/a.flac"⟩ ⟨"lib/a.flac"⟩ .copy true [] = _ ∨ _ :=
    (place_probes (by decide) (by decide) numberedTree_noLinks hs hc (by decide) numberedTree_hasRoom
      fun n _ => numberedTree_files n).2
  rcases hplaced with ⟨hnone, -⟩ | ⟨n, -, hn, hbefore, -, habsent⟩
  · exact absurd (.inl hsecond) (hnone 1 (by decide))
  · have hone : n = 1 := by
      rcases Nat.lt_trichotomy n 1 with hlt | heq | hgt
      · obtain rfl : n = 0 := by omega
        exact absurd hn hfirst
      · exact heq
      · exact absurd (.inl hsecond) (hbefore 1 hgt)
    subst hone
    exact (habsent hsecond).1.mpr ⟨rfl, .inl (by decide)⟩

/-- A path that is tried leads beside where the first one would, if it leads anywhere. -/
theorem descends_of_locate_probe (hl : t.NoLinks) (hname : dest.components = before ++ [.name name])
    (hq : t.locate (probe dest n) = .ok q) :
    t.Descends (origin dest t.workingDirectory)
      (before.filterMap Step.ofComponent? ++ [.down name]) (q.dropLast ++ [name]) := by
  obtain ⟨-, hdescends, -⟩ := (locate_iff hl).mp hq
  have hcomponents := components_probe hname n
  have horigin : origin (probe dest n) t.workingDirectory = origin dest t.workingDirectory :=
    origin_congr (by simp [hcomponents, hname]) _
  have hmoves := hdescends.moves
  rw [moves_steps_entry hcomponents, horigin] at hmoves
  exact hmoves.beside name

/-- Through a directory that is still to be made no name leads anywhere. -/
theorem numberedTree_climbing (n : Nat) : numberedTree.isDirectory (probe ⟨"lib/x/../a.flac"⟩ n) = false := by
  have hname : (FilePath.mk "lib/x/../a.flac").components =
      [.name "lib", .name "x", .up] ++ [.name "a.flac"] := by decide
  cases hlocate : numberedTree.locate (probe ⟨"lib/x/../a.flac"⟩ n) with
  | error e => simp [isDirectory, find?, hlocate]
  | ok q =>
    have hwalk : numberedTree.walk true 4 [] [.down "lib", .down "x", .up, .down "a.flac"] =
        .ok (q.dropLast ++ ["a.flac"]) :=
      (descends_of_locate_probe numberedTree_noLinks hname hlocate).walk numberedTree_noLinks (Nat.le_refl 4)
    have hfails : numberedTree.walk true 4 [] [.down "lib", .down "x", .up, .down "a.flac"] =
        .error .notFound := by decide
    rw [hfails] at hwalk
    cases hwalk

/-- A destination through a directory that is still to be made looks free, but leads to a file that is there:
the copy takes its place. -/
theorem existing_file_overwritten : ¬ ∀ (t t' u : FileTree) (source dest : FilePath) (strategy : FileStrategy)
    (verify : Bool) (claimed : List FilePath) (name : String) (c : ByteArray)
    (r : Except ImportFailure Transfer), strategy ≠ .reference → source.same dest = false → t.NoLinks →
      t.read source = .ok c → dest.fileName? = some name → t.withParent dest = .ok u →
      (∀ n < 1000, t.isDirectory (probe dest n) = false) → (∀ p ∈ claimed, t.exists? p = true) →
      t.place source dest strategy verify claimed = (r, t') → t.Keeps t' := by
  intro hall
  have hmade : (numberedTree.withParent ⟨"lib/x/../a.flac"⟩).toOption.isSome = true := by decide
  obtain ⟨u, hu⟩ : ∃ u, numberedTree.withParent ⟨"lib/x/../a.flac"⟩ = .ok u := by
    cases h : numberedTree.withParent ⟨"lib/x/../a.flac"⟩ with
    | ok u => exact ⟨u, rfl⟩
    | error e => simp [h, Except.toOption] at hmade
  have hread : numberedTree.read ⟨"in/a.flac"⟩ = .ok "new".toUTF8 := by decide
  have hkeeps := hall numberedTree _ u ⟨"in/a.flac"⟩ ⟨"lib/x/../a.flac"⟩ .copy false [] "a.flac" _ _ (by decide)
    (by decide) numberedTree_noLinks hread (by decide) hu (fun n _ => numberedTree_climbing n) (by simp) rfl
    ["lib", "a.flac"] "old".toUTF8 (by decide)
  revert hkeeps
  decide +kernel

end FileTree
end MusicImport
