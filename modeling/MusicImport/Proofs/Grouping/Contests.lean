import Mathlib.Data.List.Sort
import MusicImport.Proofs.Session.Splitting

/-! The order in which sets of discs claim loose files. Sets are kept in a map that has no order, so a scan
can go through them in any. The albums do not depend on it, unless two sets have one path and a directory
with files of its own lies there that is no disc. Then its files go with whichever of the two comes first. -/
namespace MusicImport

open FilePath DiscSet

variable {root dir dir' : FilePath} {files : List FilePath} {dirs : List AudioDirectory}
  {sets sets' : List DiscSet} {s u : DiscSet} {claimed claimed' : List ClaimedSet} {c : ClaimedSet}

namespace DiscSet

/-- A directory with files of its own, and no disc of any set, has this path. -/
def Free (dirs : List AudioDirectory) (sets : List DiscSet) (p : FilePath) : Prop :=
  (∃ d ∈ dirs, d.path.same p) ∧ ∀ s ∈ sets, ¬ s.has p

/-- Two sets have the path of one directory that is free. -/
def Contested (dirs : List AudioDirectory) (sets : List DiscSet) : Prop :=
  ∃ s ∈ sets, ∃ u ∈ sets, ¬ Joins s u ∧ s.keyPath.same u.keyPath ∧ Free dirs sets u.keyPath

theorem Free.perm {p : FilePath} (h : Free dirs sets p) (hperm : sets'.Perm sets) :
    Free dirs sets' p :=
  ⟨h.1, fun s hs => h.2 s (hperm.mem_iff.mp hs)⟩

theorem Free.of_same {p q : FilePath} (h : Free dirs sets p) (hsame : p.same q) : Free dirs sets q := by
  obtain ⟨⟨d, hd, hdp⟩, hnodisc⟩ := h
  refine ⟨⟨d, hd, same_trans hdp hsame⟩, fun s hs hhas => hnodisc s hs ?_⟩
  exact has_of_same hhas (same_comm.mp hsame)

theorem Contested.perm (h : Contested dirs sets) (hperm : sets'.Perm sets) : Contested dirs sets' := by
  obtain ⟨s, hs, u, hu, hapart, hsame, hfree⟩ := h
  exact ⟨s, hperm.mem_iff.mpr hs, u, hperm.mem_iff.mpr hu, hapart, hsame, hfree.perm hperm⟩

end DiscSet

/-- The set to which a directory belongs is the one that owns it. -/
theorem owner_iff (hapart : (claimed.flatMap ClaimedSet.paths).Pairwise fun p q => ¬ p.same q) :
    (setOf? claimed dir).bind (claimed[·]?) = some c ↔ c ∈ claimed ∧ c.Owns dir := by
  rw [Option.bind_eq_some_iff]
  constructor
  · rintro ⟨i, hset, hc⟩
    obtain ⟨b, hb, howns⟩ := owns_of_setOf? hset
    obtain rfl : b = c := by simpa [hb] using hc
    exact ⟨List.mem_of_getElem? hc, howns⟩
  · rintro ⟨hmem, howns⟩
    obtain ⟨i, hi⟩ := List.mem_iff_getElem?.mp hmem
    exact ⟨i, setOf?_eq_some hapart hi howns, hi⟩

/-- A directory has one owner. -/
theorem Owned.eq_of_owns (howned : Owned dirs claimed) {a b : ClaimedSet} (ha : a ∈ claimed)
    (hb : b ∈ claimed) (hao : a.Owns dir) (hbo : b.Owns dir) : a = b := by
  have howner := (owner_iff howned.apart).mpr ⟨ha, hao⟩
  rw [(owner_iff howned.apart).mpr ⟨hb, hbo⟩] at howner
  exact (Option.some.inj howner).symm

/-- The album of a directory depends on the sets, and not on their order. -/
theorem albumOf_congr (howned : Owned dirs claimed) (howned' : Owned dirs claimed')
    (h : ∀ c, c ∈ claimed ↔ c ∈ claimed') (d : AudioDirectory) :
    albumOf dirs claimed d = albumOf dirs claimed' d := by
  have howner : (setOf? claimed d.path).bind (claimed[·]?) =
      (setOf? claimed' d.path).bind (claimed'[·]?) := by
    apply Option.ext
    intro c
    rw [owner_iff howned.apart, owner_iff howned'.apart, h c]
  unfold albumOf
  rw [howner]

/-- Of two sets that are one, one is the other. -/
theorem Claims.eq_of_joins (h : Claims dirs sets sets claimed) (hsets : Among dirs sets)
    {a b : ClaimedSet} (ha : a ∈ claimed) (hb : b ∈ claimed) (hjoins : Joins a.discs b.discs) :
    a = b := by
  obtain ⟨i, hi⟩ := List.mem_iff_getElem?.mp ha
  obtain ⟨j, hj⟩ := List.mem_iff_getElem?.mp hb
  have hij : i = j := index_eq_of_pairwise Joins.symm hsets.apart (h.discs_getElem? hi)
    (h.discs_getElem? hj) hjoins
  rw [hij, hj] at hi
  exact (Option.some.inj hi).symm

/-- Where no directory is contested, a set claims the one with its path as if it was alone. -/
theorem mem_claimLoose_iff (hsets : Among dirs sets) (h : ¬ Contested dirs sets) :
    c ∈ claimLoose dirs sets ↔
      c.discs ∈ sets ∧ ∀ p, p ∈ c.loose ↔ p = c.discs.keyPath ∧ Free dirs sets p := by
  have hclaims := claims_claimLoose dirs sets
  have hown : ∀ {c : ClaimedSet}, c ∈ claimLoose dirs sets →
      ∀ p, p ∈ c.loose ↔ p = c.discs.keyPath ∧ Free dirs sets p := by
    intro c hc p
    constructor
    · intro hp
      obtain ⟨hkey, hdir, hnodisc⟩ := hclaims.loose c hc p hp
      exact ⟨hkey, hdir, hnodisc⟩
    · rintro ⟨rfl, hfree⟩
      have hcs := hclaims.discs_mem hc
      obtain ⟨b, hb, p, hp, hsame⟩ := hclaims.all c.discs hcs hfree.1 hfree.2
      obtain ⟨rfl, -⟩ := hclaims.loose b hb p hp
      -- another set with this path would contest the directory
      have hjoins : Joins b.discs c.discs := by
        by_contra hapart
        exact h ⟨b.discs, hclaims.discs_mem hb, c.discs, hcs, hapart, hsame, hfree⟩
      obtain rfl : b = c := hclaims.eq_of_joins hsets hb hc hjoins
      exact hp
  constructor
  · intro hc
    exact ⟨hclaims.discs_mem hc, hown hc⟩
  · rintro ⟨hdiscs, hloose⟩
    obtain ⟨b, hb, hbc⟩ := hclaims.exists_discs hdiscs
    have hloose' : b.loose = c.loose := by
      apply Option.ext
      intro p
      have hp := hown hb p
      rw [hbc, ← hloose p] at hp
      exact hp
    obtain ⟨discs, loose⟩ := c
    obtain rfl : b.discs = discs := hbc
    obtain rfl : b.loose = loose := hloose'
    exact hb

/-- Without a contest the albums are the same, whatever the order of the sets. -/
theorem albumPlansFrom_eq_of_perm (hfiled : Filed root files dirs) (hsets : Among dirs sets)
    (h : ¬ Contested dirs sets) (hperm : sets'.Perm sets) :
    albumPlansFrom dirs sets' = albumPlansFrom dirs sets := by
  have hsets' : Among dirs sets' := hsets.perm hperm
  have hclaimed : ∀ c, c ∈ claimLoose dirs sets' ↔ c ∈ claimLoose dirs sets := by
    intro c
    have h' : ¬ Contested dirs sets' := fun hcontest => h (hcontest.perm hperm.symm)
    rw [mem_claimLoose_iff hsets h, mem_claimLoose_iff hsets' h', hperm.mem_iff]
    refine and_congr_right fun _ => forall_congr' fun p => iff_congr Iff.rfl (and_congr_right fun _ => ?_)
    exact ⟨fun hfree => hfree.perm hperm.symm, fun hfree => hfree.perm hperm⟩
  have howned := owned_claimLoose hsets
  have howned' := owned_claimLoose hsets'
  -- the albums stand in the order in which the walk came to them, so it is enough that they are the same
  let Before (a b : GroupPlan) : Prop := seenAt root files a < seenAt root files b
  have : Std.Irrefl Before := ⟨fun a => Nat.lt_irrefl _⟩
  have : Std.Antisymm Before := ⟨fun a b hab hba => absurd hab (Nat.lt_asymm hba)⟩
  have hordered : (albumPlansFrom dirs sets).Pairwise Before := albums_inOrder hfiled howned
  have hordered' : (albumPlansFrom dirs sets').Pairwise Before := albums_inOrder hfiled howned'
  apply hordered'.eq_of_mem_iff hordered
  intro p
  unfold albumPlansFrom
  rw [mem_emitAlbums_iff, mem_emitAlbums_iff]
  simp only [albumOf_congr howned' howned hclaimed]

theorem mem_foldl_of_mem {α β : Type} (f : List β → α → β) {b : β} (todo : List α) {done : List β}
    (h : b ∈ done) : b ∈ todo.foldl (fun done a => done ++ [f done a]) done := by
  induction todo generalizing done with
  | nil => exact h
  | cons a todo ih => exact ih (List.mem_append_left _ h)

/-- The set that comes first claims a free directory. -/
theorem first_claims (rest : List DiscSet) (hfree : Free dirs (s :: rest) s.keyPath) :
    ⟨s, some s.keyPath⟩ ∈ claimLoose dirs (s :: rest) := by
  have hdir : dirs.any (·.path.same s.keyPath) = true := List.any_eq_true.mpr hfree.1
  have hnodisc : (s :: rest).any (·.has s.keyPath) = false := by
    rw [List.any_eq_false]
    exact hfree.2
  unfold claimLoose
  rw [List.foldl_cons]
  dsimp only
  apply mem_foldl_of_mem
  simp [hdir, hnodisc]

/-- A set has an album with files from every directory that it owns. -/
theorem exists_album (hfiled : Filed root files dirs) (howned : Owned dirs claimed) (hc : c ∈ claimed)
    (howns : c.Owns dir) :
    ∃ p ∈ emitAlbums dirs claimed [] dirs, ∀ dir, c.Owns dir →
      ∃ f ∈ p.files, dir.same (directoryIn root f) := by
  obtain ⟨q, hq, -⟩ := howns
  obtain ⟨d, hd, hsame⟩ := howned.known c hc q hq
  have halbum : albumOf dirs claimed d = c.plan dirs := by
    unfold albumOf
    rw [(owner_iff howned.apart).mpr ⟨hc, q, hq, same_comm.mp hsame⟩]
  refine ⟨c.plan dirs, mem_emitAlbums_iff.mpr ⟨d, hd, halbum⟩, ?_⟩
  rintro dir ⟨q, hq, hqdir⟩
  obtain ⟨e, he, hsame⟩ := howned.known c hc q hq
  obtain ⟨f, hf⟩ := List.exists_mem_of_ne_nil _ (filesIn_ne_nil hfiled he hsame)
  refine ⟨f, ?_, same_trans (same_comm.mp hqdir) (List.mem_filter.mp hf).2⟩
  rw [files_plan hfiled]
  exact List.mem_flatMap.mpr ⟨q, hq, hf⟩

/-- An album with files of one directory of a set has files from directories of this set only. -/
theorem owns_of_album (hfiled : Filed root files dirs) (howned : Owned dirs claimed) {p : GroupPlan}
    (hp : p ∈ emitAlbums dirs claimed [] dirs) (hc : c ∈ claimed) (howns : c.Owns dir)
    (hf : ∃ f ∈ p.files, dir.same (directoryIn root f))
    (hg : ∃ g ∈ p.files, dir'.same (directoryIn root g)) : c.Owns dir' := by
  obtain ⟨x, hx, rfl⟩ := mem_emitAlbums_iff.mp hp
  rw [files_albumOf hfiled hx] at hf hg
  obtain ⟨f, hf, hdir⟩ := hf
  obtain ⟨g, hg, hdir'⟩ := hg
  obtain ⟨q, hq, hqf⟩ := List.mem_flatMap.mp hf
  obtain ⟨r, hr, hrg⟩ := List.mem_flatMap.mp hg
  have hqdir : q.same dir := same_trans (List.mem_filter.mp hqf).2 (same_comm.mp hdir)
  have hrdir : r.same dir' := same_trans (List.mem_filter.mp hrg).2 (same_comm.mp hdir')
  rcases blockOf_cases claimed x with ⟨hnone, hblock⟩ | ⟨i, b, -, hb, -, hblock⟩
  · rw [hblock, List.mem_singleton] at hq
    subst hq
    obtain ⟨y, hy, hydir⟩ := howns
    have hyx : y.same x.path := same_trans hydir (same_comm.mp hqdir)
    exact absurd ⟨y, hy, hyx⟩ (setOf?_eq_none.mp hnone c hc)
  · rw [hblock] at hq hr
    obtain rfl : b = c := howned.eq_of_owns (List.mem_of_getElem? hb) hc ⟨q, hq, hqdir⟩ howns
    exact ⟨r, hr, hrdir⟩

/-- With a contest the albums differ by which of the two sets comes first. -/
theorem albumPlansFrom_ne_of_contested (hfiled : Filed root files dirs) (hsets : Among dirs sets)
    (h : Contested dirs sets) :
    ∃ a b, a.Perm sets ∧ b.Perm sets ∧ albumPlansFrom dirs a ≠ albumPlansFrom dirs b := by
  obtain ⟨s, hs, u, hu, hapart, hsame, hfree⟩ := h
  have hfront : ∀ x ∈ sets, ∃ rest, (x :: rest).Perm sets := by
    intro x hx
    obtain ⟨before, after, rfl⟩ := List.append_of_mem hx
    exact ⟨before ++ after, List.perm_middle.symm⟩
  obtain ⟨rest, hperm⟩ := hfront s hs
  obtain ⟨rest', hperm'⟩ := hfront u hu
  refine ⟨_, _, hperm, hperm', fun heq => hapart ?_⟩
  have howned := owned_claimLoose (hsets.perm hperm)
  have howned' := owned_claimLoose (hsets.perm hperm')
  have hfirst : ⟨s, some s.keyPath⟩ ∈ claimLoose dirs (s :: rest) :=
    first_claims rest ((hfree.of_same (same_comm.mp hsame)).perm hperm)
  have hfirst' : ⟨u, some u.keyPath⟩ ∈ claimLoose dirs (u :: rest') :=
    first_claims rest' (hfree.perm hperm')
  obtain ⟨m, hm⟩ := hsets.exists_disc hs
  have hdisc : ∀ c : ClaimedSet, c.discs = s → c.Owns m.path := by
    rintro c rfl
    exact ClaimedSet.owns_of_has (has_disc hm)
  -- if `s` comes first, the contested files lie in one album with those of its disc `m`
  obtain ⟨p, hp, hfiles⟩ := exists_album hfiled howned hfirst (hdisc _ rfl)
  have hcontested := hfiles u.keyPath (ClaimedSet.owns_of_loose rfl hsame)
  -- if `u` comes first, they lie with the discs of `u`, so `u` would own `m`
  have hp' : p ∈ albumPlansFrom dirs (u :: rest') := heq ▸ hp
  have howns : ClaimedSet.Owns ⟨u, some u.keyPath⟩ m.path :=
    owns_of_album hfiled howned' hp' hfirst' (ClaimedSet.owns_of_loose rfl (same_refl _)) hcontested
      (hfiles m.path (hdisc _ rfl))
  obtain ⟨c, hc, hcs⟩ := (claims_claimLoose dirs (u :: rest')).exists_discs (hperm'.mem_iff.mpr hs)
  obtain rfl : c = ⟨u, some u.keyPath⟩ := howned'.eq_of_owns hc hfirst' (hdisc c hcs) howns
  exact hcs ▸ Joins.refl _

/-- An order in which a scan goes through its sets of discs. -/
def Rearranges (arrange : List DiscSet → List DiscSet) : Prop := ∀ sets, (arrange sets).Perm sets

theorem exists_rearranges (h : sets'.Perm sets) : ∃ arrange, Rearranges arrange ∧ arrange sets = sets' := by
  classical
  refine ⟨fun x => if x = sets then sets' else x, fun x => ?_, if_pos rfl⟩
  by_cases hx : x = sets
  · simpa [hx] using h
  · simp [hx]

/-- Every order of the sets yields the same albums exactly if no directory is contested. -/
theorem albumPlansFrom_rearranged_iff (hfiled : Filed root files dirs) (hsets : Among dirs sets) :
    (∀ a b, Rearranges a → Rearranges b →
      albumPlansFrom dirs (a sets) = albumPlansFrom dirs (b sets)) ↔ ¬ Contested dirs sets := by
  constructor
  · intro hsame hcontest
    obtain ⟨x, y, hx, hy, hne⟩ := albumPlansFrom_ne_of_contested hfiled hsets hcontest
    obtain ⟨a, ha, rfl⟩ := exists_rearranges hx
    obtain ⟨b, hb, rfl⟩ := exists_rearranges hy
    exact hne (hsame a b ha hb)
  · intro hfree a b ha hb
    rw [albumPlansFrom_eq_of_perm hfiled hsets hfree (ha sets),
      albumPlansFrom_eq_of_perm hfiled hsets hfree (hb sets)]

namespace Task

/-- The group of a task whose files were all read. -/
def plan (t : Task) : GroupPlan := ⟨t.key, t.tracks.map (·.path), t.isAlbum⟩

end Task

namespace FileTree

variable {t : FileTree} {singletons follow : Bool}

/-- The groups below a root, where sets of discs claim loose files in some order. A scan takes them in the
order of their first discs (`discoverIn_id`). -/
def discoverIn (arrange : List DiscSet → List DiscSet) (t : FileTree) (root : FilePath)
    (singletons follow : Bool) : Except ImportFailure (List GroupPlan) :=
  if !t.exists? root then .error (.fileNotFound root.text)
  else if t.isFile root then
    if isAudioFile root then .ok [⟨root.text, [root], false⟩]
    else .error (.invalidPath (root.text ++ " is not a supported audio file"))
  else
    let dirs := byDirectory root (t.audioFiles root follow)
    .ok (if singletons then singletonPlans dirs else albumPlansFrom dirs (arrange (ofDirectories dirs)))

theorem discoverIn_id : t.discoverIn id root singletons follow = t.discover root singletons follow := rfl

/-- The tasks of the groups below a root that are not settled, given what tracks are read of files. -/
def tasksIn (arrange : List DiscSet → List DiscSet) (t : FileTree) (root : FilePath)
    (singletons follow : Bool) (settled : List GroupKey) (read : List FilePath → List Track) :
    Except ImportFailure (List Task) :=
  (t.discoverIn arrange root singletons follow).map fun plans =>
    (plans.filter fun p => !settled.contains p.key).filterMap fun p => p.task? (read p.files)

theorem tasksIn_untagged {arrange : List DiscSet → List DiscSet} {plans : List GroupPlan}
    (h : t.discoverIn arrange root singletons follow = .ok plans) :
    t.tasksIn arrange root singletons follow [] untagged =
      .ok (plans.filterMap fun p => p.task? (untagged p.files)) := by
  unfold tasksIn
  rw [h]
  simp [Except.map]

theorem found_missing (h : t.exists? root = false) : t.found root follow = [] := by
  have hnowhere : t.directoryAt? root = none := by
    unfold exists? find? at h
    unfold directoryAt?
    cases hlocate : t.locate root with
    | error e => rfl
    | ok place =>
      rw [hlocate] at h
      cases hnode : t.nodeAt? place with
      | none => simp [hnode]
      | some node => simp [hnode] at h
  have hfile : t.isFile root = false := by
    unfold exists? at h
    unfold isFile
    cases hfind : t.find? root with
    | none => rfl
    | some node => simp [hfind] at h
  simp [found, hfile, audioFiles, hnowhere]

/-- The order of the sets can matter only for albums below a directory. -/
theorem discoverIn_cases (t : FileTree) (root : FilePath) (singletons follow : Bool) :
    let dirs := byDirectory root (t.found root follow)
    (∀ arrange, t.discoverIn arrange root singletons follow = t.discover root singletons follow) ∧
      (singletons = true ∨ ofDirectories dirs = []) ∨
    singletons = false ∧ ∀ arrange, t.discoverIn arrange root singletons follow =
      .ok (albumPlansFrom dirs (arrange (ofDirectories dirs))) := by
  intro dirs
  cases hthere : t.exists? root with
  | false =>
    left
    constructor
    · simp [discoverIn, discover, hthere]
    · right
      simp only [dirs, found_missing hthere]
      rfl
  | true =>
    cases hfile : t.isFile root with
    | true =>
      left
      constructor
      · simp [discoverIn, discover, hthere, hfile]
      · right
        have hfound : t.found root follow = [root] := by simp [found, hfile]
        simp only [dirs, hfound, ofDirectories_single]
    | false =>
      cases singletons with
      | true =>
        left
        constructor
        · simp [discoverIn, discover, hthere, hfile]
        · exact .inl rfl
      | false =>
        right
        have hfound : t.found root follow = t.audioFiles root follow := by simp [found, hfile]
        simp [discoverIn, hthere, hfile, dirs, hfound]

theorem isAlbum_of_mem {p : GroupPlan} (h : p ∈ albumPlansFrom dirs sets) : p.isAlbum = true := by
  obtain ⟨d, -, rfl⟩ := mem_emitAlbums_iff.mp h
  unfold albumOf
  split <;> rfl

/-- Where all files are read, the tasks of albums tell their groups. -/
theorem plans_of_tasks {plans : List GroupPlan} (h : ∀ p ∈ plans, p.isAlbum = true ∧ p.files ≠ []) :
    (plans.filterMap fun p => p.task? (untagged p.files)).map Task.plan = plans := by
  induction plans with
  | nil => rfl
  | cons p rest ih =>
    obtain ⟨key, files, isAlbum⟩ := p
    obtain ⟨rfl, hfiles⟩ := h _ (.head _)
    obtain ⟨f, files, rfl⟩ := List.exists_cons_of_ne_nil hfiles
    have hrest := ih fun q hq => h q (.tail _ hq)
    have htask : GroupPlan.task? ⟨key, f :: files, true⟩ (untagged (f :: files)) =
        some { key, tracks := untagged (f :: files), isAlbum := true, state := .grouped } := rfl
    have hpaths : (untagged (f :: files)).map (·.path) = f :: files := by
      simp [untagged, Function.comp_def]
    rw [List.filterMap_cons, htask]
    simp only [List.map_cons, hrest, Task.plan, hpaths]

/-- Two orders that yield the same tasks yield the same groups. -/
theorem discoverIn_eq_of_tasksIn {a b : List DiscSet → List DiscSet} (ha : Rearranges a)
    (hb : Rearranges b) (h : t.tasksIn a root singletons follow [] untagged =
      t.tasksIn b root singletons follow [] untagged) :
    t.discoverIn a root singletons follow = t.discoverIn b root singletons follow := by
  rcases discoverIn_cases t root singletons follow with ⟨hplans, -⟩ | ⟨-, hplans⟩
  · exact (hplans a).trans (hplans b).symm
  · have hfiled := filed_byDirectory root (t.found root follow)
    have halbums : ∀ arrange, Rearranges arrange → ∀ p ∈ albumPlansFrom
        (byDirectory root (t.found root follow))
        (arrange (ofDirectories (byDirectory root (t.found root follow)))),
        p.isAlbum = true ∧ p.files ≠ [] := by
      intro arrange harrange p hp
      have hsets := (ofDirectories_among hfiled.apart).perm (harrange _)
      exact ⟨isAlbum_of_mem hp, (albumPlansFrom_partitions hfiled hsets).nonempty p hp⟩
    rw [tasksIn_untagged (hplans a), tasksIn_untagged (hplans b), Except.ok.injEq] at h
    rw [hplans a, hplans b, ← plans_of_tasks (halbums a ha), ← plans_of_tasks (halbums b hb), h]

theorem discoverIn_rearranged_iff :
    (∀ a b, Rearranges a → Rearranges b →
      t.discoverIn a root singletons follow = t.discoverIn b root singletons follow) ↔
    singletons = true ∨ ¬ Contested (byDirectory root (t.found root follow))
      (ofDirectories (byDirectory root (t.found root follow))) := by
  have hfiled := filed_byDirectory root (t.found root follow)
  rcases discoverIn_cases t root singletons follow with ⟨hplans, hnone⟩ | ⟨rfl, hplans⟩
  · refine iff_of_true (fun a b _ _ => (hplans a).trans (hplans b).symm) (hnone.imp id ?_)
    rintro hnil ⟨s, hs, -⟩
    rw [hnil] at hs
    cases hs
  · rw [← albumPlansFrom_rearranged_iff hfiled (ofDirectories_among hfiled.apart)]
    simp only [hplans, Except.ok.injEq, Bool.false_eq_true, false_or]

/-- Every order of the sets yields the same groups, and every one the same tasks, exactly if files stand
alone or no directory is contested. -/
theorem discoverIn_same_iff (t : FileTree) (root : FilePath) (singletons follow : Bool) :
    let dirs := byDirectory root (t.found root follow)
    ((∀ a b, Rearranges a → Rearranges b →
      t.discoverIn a root singletons follow = t.discoverIn b root singletons follow) ↔
      singletons = true ∨ ¬ Contested dirs (ofDirectories dirs)) ∧
    ((∀ a b, Rearranges a → Rearranges b → ∀ settled read,
      t.tasksIn a root singletons follow settled read = t.tasksIn b root singletons follow settled read) ↔
      singletons = true ∨ ¬ Contested dirs (ofDirectories dirs)) := by
  intro dirs
  refine ⟨discoverIn_rearranged_iff, ?_⟩
  rw [← discoverIn_rearranged_iff]
  constructor
  · intro htasks a b ha hb
    exact discoverIn_eq_of_tasksIn ha hb (htasks a b ha hb [] untagged)
  · intro hplans a b ha hb settled read
    unfold tasksIn
    rw [hplans a b ha hb]

/-- A directory with a file of its own and the discs of an album, and beside it two discs of its name. -/
def looseTree : FileTree :=
  { nodes := [(["m"], .directory), (["m", "Wall"], .directory), (["m", "Wall", "0.mp3"], .file .empty),
      (["m", "Wall", "Disc 1"], .directory), (["m", "Wall", "Disc 1", "a.mp3"], .file .empty),
      (["m", "Wall", "Disc 2"], .directory), (["m", "Wall", "Disc 2", "b.mp3"], .file .empty),
      (["m", "Wall (Disc 1)"], .directory), (["m", "Wall (Disc 1)", "c.mp3"], .file .empty),
      (["m", "Wall (Disc 2)"], .directory), (["m", "Wall (Disc 2)", "d.mp3"], .file .empty)] }

theorem looseTree_audioFiles : looseTree.audioFiles ⟨"m"⟩ false =
    [⟨"m/Wall/0.mp3"⟩, ⟨"m/Wall/Disc 1/a.mp3"⟩, ⟨"m/Wall/Disc 2/b.mp3"⟩, ⟨"m/Wall (Disc 1)/c.mp3"⟩,
      ⟨"m/Wall (Disc 2)/d.mp3"⟩] := by
  have hroot : looseTree.children ["m"] =
      ["Wall", "Wall (Disc 1)", "Wall (Disc 2)"].map (·, .directory) :=
    List.mergeSort_of_pairwise (by decide)
  have hwall : looseTree.children ["m", "Wall"] =
      [("0.mp3", .file .empty), ("Disc 1", .directory), ("Disc 2", .directory)] :=
    List.mergeSort_of_pairwise (by decide)
  have ha : looseTree.children ["m", "Wall", "Disc 1"] = [("a.mp3", .file .empty)] :=
    List.mergeSort_of_pairwise (by decide)
  have hb : looseTree.children ["m", "Wall", "Disc 2"] = [("b.mp3", .file .empty)] :=
    List.mergeSort_of_pairwise (by decide)
  have hc : looseTree.children ["m", "Wall (Disc 1)"] = [("c.mp3", .file .empty)] :=
    List.mergeSort_of_pairwise (by decide)
  have hd : looseTree.children ["m", "Wall (Disc 2)"] = [("d.mp3", .file .empty)] :=
    List.mergeSort_of_pairwise (by decide)
  have hplace : looseTree.directoryAt? ⟨"m"⟩ = some ["m"] := by decide
  rw [audioFiles, hplace]
  show (looseTree.filesBelow false 12 [] ["m"] ⟨"m"⟩).filter isAudioFile = _
  rw [filesBelow_directories hroot]
  simp only [List.flatMap_cons, List.flatMap_nil, List.cons_append, List.nil_append]
  rw [filesBelow_single hc, filesBelow_single hd, filesBelow, hwall]
  simp only [List.flatMap_cons, List.flatMap_nil, List.cons_append, List.nil_append]
  rw [filesBelow_single ha, filesBelow_single hb]
  decide +kernel

/-- Two scans of one tree can yield different groups. -/
theorem discoverIn_not_same :
    ¬ ∀ (t : FileTree) (root : FilePath) (follow : Bool), t.Proper →
      ∀ a b, Rearranges a → Rearranges b → t.discoverIn a root false follow = t.discoverIn b root false follow := by
  intro h
  have hproper : looseTree.Proper := ⟨by decide, by decide⟩
  have hsame := h looseTree ⟨"m"⟩ false hproper id List.reverse (fun _ => .refl _) List.reverse_perm
  have hplans : ∀ arrange, looseTree.discoverIn arrange ⟨"m"⟩ false false = .ok (albumPlansFrom
      (byDirectory ⟨"m"⟩ (looseTree.audioFiles ⟨"m"⟩ false))
      (arrange (ofDirectories (byDirectory ⟨"m"⟩ (looseTree.audioFiles ⟨"m"⟩ false))))) := by
    intro arrange
    have hthere : looseTree.exists? ⟨"m"⟩ = true := by decide
    have hfile : looseTree.isFile ⟨"m"⟩ = false := by decide
    simp [discoverIn, hthere, hfile]
  rw [hplans, hplans, looseTree_audioFiles, ofDirectories_eq (by decide +kernel), Except.ok.injEq] at hsame
  revert hsame
  decide +kernel

end FileTree
end MusicImport
