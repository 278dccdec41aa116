import MusicImport.Proofs.Library.Written
import MusicImport.Proofs.Session.Committing

/-! What the transfers of a task leave. Where the catalog tells the files of a library as they are written there,
all that its rows have in the directories of the destinations is claimed, so no file gets the path of another. -/
namespace MusicImport

open FilePath

variable {p q dest d : FilePath} {paths dests : List FilePath}

/-- A directory is added unless it is there in some spelling. -/
def addDistinct (dirs : List FilePath) (d : FilePath) : List FilePath :=
  if dirs.any d.same then dirs else dirs ++ [d]

theorem mem_foldl_addDistinct {dirs seen : List FilePath} (h : d ∈ dirs.foldl addDistinct seen) :
    d ∈ seen ∨ d ∈ dirs := by
  induction dirs generalizing seen with
  | nil => exact .inl h
  | cons a dirs ih =>
    rcases ih h with hseen | hdirs
    · unfold addDistinct at hseen
      split at hseen
      · exact .inl hseen
      · rcases List.mem_append.mp hseen with hseen | ha
        · exact .inl hseen
        · exact .inr (List.mem_singleton.mp ha ▸ .head _)
    · exact .inr (.tail a hdirs)

theorem foldl_addDistinct_covers {dirs seen : List FilePath}
    (h : (∃ e ∈ seen, e.same d) ∨ ∃ e ∈ dirs, e.same d) : ∃ e ∈ dirs.foldl addDistinct seen, e.same d := by
  induction dirs generalizing seen with
  | nil => simpa using h
  | cons a dirs ih =>
    apply ih
    unfold addDistinct
    rcases h with ⟨e, he, hsame⟩ | ⟨e, he, hsame⟩
    · left
      refine ⟨e, ?_, hsame⟩
      split
      · exact he
      · exact List.mem_append_left _ he
    · rcases List.mem_cons.mp he with rfl | he
      · left
        split
        next hseen =>
          obtain ⟨b, hb, hab⟩ := List.any_eq_true.mp hseen
          exact ⟨b, hb, same_trans (same_comm.mp hab) hsame⟩
        · exact ⟨e, by simp, hsame⟩
      · exact .inr ⟨e, he, hsame⟩

/-- Every directory is among the distinct ones, in the spelling of one of the paths. -/
theorem exists_distinctDirectory (hp : p ∈ paths) (hd : p.parent? = some d) :
    ∃ q ∈ paths, ∃ e ∈ distinctDirectories paths, q.parent? = some e ∧ e.same d := by
  have hmem : d ∈ paths.filterMap (·.parent?) := List.mem_filterMap.mpr ⟨p, hp, hd⟩
  obtain ⟨e, he, hsame⟩ : ∃ e ∈ (paths.filterMap (·.parent?)).foldl addDistinct [], e.same d :=
    foldl_addDistinct_covers (.inr ⟨d, hmem, same_refl d⟩)
  obtain ⟨q, hq, hparent⟩ := List.mem_filterMap.mp ((mem_foldl_addDistinct he).resolve_left (by simp))
  exact ⟨q, hq, e, List.mem_mergeSort.mpr he, hparent, hsame⟩

/-- A path starts with the directory that is its parent. -/
theorem directoryStart_parent (hd : p.parent? = some d) (hne : d.components ≠ [])
    (hroot : .root ∈ d.components → .root ∈ p.components) :
    Catalog.directoryStart d <+: p.text.toList := by
  unfold Catalog.directoryStart
  rcases parent_pieces hd with rfl | rfl | ⟨rest, hpieces, hrest, hlast, -⟩
  · exact absurd (by decide) hne
  · have habsolute := isAbsolute_of_root (hroot (by decide))
    unfold isAbsolute at habsolute
    obtain ⟨rest, htext⟩ := List.head?_eq_some_iff.mp (by simpa using habsolute)
    rw [htext]
    exact ⟨rest, rfl⟩
  · have hrestne : rest ≠ [] := by
      rintro rfl
      exact hrest rfl
    have hbehind : (FilePath.mk (Text.joinWith "/" rest)).pieces = rest :=
      pieces_joinWith hrestne fun piece hmem =>
        slash_not_mem_piece (p := p) (hpieces ▸ List.mem_append_right _ hmem)
    have htext : p = ⟨d.text ++ "/" ++ Text.joinWith "/" rest⟩ := by
      apply pieces_injective
      rw [hpieces, pieces_between d ⟨Text.joinWith "/" rest⟩, hbehind]
    have hend : Text.dropEndWhile (· == '/') d.text.toList = d.text.toList := by
      apply List.rdropWhile_eq_self_iff.mpr
      intro hchars hslash
      obtain ⟨dir, -, hdir⟩ := exists_directory (p := d) (by
        rw [List.getLast?_eq_getLast_of_ne_nil hchars]
        simpa using hslash)
      rw [hdir] at hlast
      simp at hlast
    refine ⟨(Text.joinWith "/" rest).toList, ?_⟩
    rw [htext, hend]
    simp [String.toList_append]

namespace Session

open FileTree

variable {s s' : Session} {env : Environment} {t : Task} {records : List Track} {library : FilePath}
  {c : Catalog}

/-- A row in the directory of a destination is listed if both are written under one library. -/
theorem listed_of_same (hlibrary : library.text ≠ "")
    (hdests : ∀ dest ∈ dests, ∀ p, Tried dest p → WrittenUnder library p) (hp : p ∈ c.paths)
    (hunder : WrittenUnder library p) (hdest : dest ∈ dests) (hq : Tried dest q) (hsame : p.same q) :
    p ∈ listedPaths c dests := by
  obtain ⟨folders, other, -, hcomponents, hd⟩ := hunder.parent?
  have hparent : dest.parent? = p.parent? := by
    rw [← parent?_of_tried hq]
    exact (hdests dest hdest q hq).parent?_eq hunder (by rw [same_iff.mp hsame])
  obtain ⟨r, hr, e, he, hre, hed⟩ := exists_distinctDirectory hdest (hparent.trans hd)
  -- the directory is listed in the very spelling that the row has
  have hrunder := hdests r hr r (.inl rfl)
  have hrp : r.parent? = p.parent? := by
    obtain ⟨folders', other', -, hcomponents', -⟩ := hrunder.parent?
    apply hrunder.parent?_eq hunder
    rw [hcomponents', hcomponents, List.dropLast_concat, List.dropLast_concat,
      ← components_parent hcomponents' hre, ← components_parent hcomponents hd]
    exact same_iff.mp hed
  have hpe : p.parent? = some e := hrp.symm.trans hre
  have hecomponents := components_parent hcomponents hpe
  have hstart : Catalog.directoryStart e <+: p.text.toList := by
    apply directoryStart_parent hpe
    · rw [hecomponents]
      exact List.append_ne_nil_of_left_ne_nil (components_ne_nil hlibrary) _
    · intro hroot
      rw [hcomponents]
      exact List.mem_append_left _ (hecomponents ▸ hroot)
  have hunder : p ∈ c.pathsUnder e := by
    unfold Catalog.pathsUnder
    rw [List.mem_mergeSort, List.mem_filter]
    exact ⟨hp, List.isPrefixOf_iff_prefix.mpr hstart⟩
  exact List.mem_flatMap.mpr ⟨e, he, hunder⟩

/-- A path that is not the path of a library with names behind it. -/
def Outside (library p : FilePath) : Prop :=
  ∀ names : List String, p.components ≠ library.components ++ names.map .name

theorem Outside.other {source : FilePath} (h : Outside library source) (hp : WrittenUnder library p) :
    source.same p = false := by
  rw [Bool.eq_false_iff]
  intro hsame
  obtain ⟨folders, other, -, hcomponents, -⟩ := hp.parent?
  apply h (folders ++ [other])
  rw [same_iff.mp hsame, hcomponents, List.map_append, List.append_assoc]
  rfl

/-- The rows of a library in the spelling that they were written with, each with a file of its own. -/
structure Recorded (s : Session) (library : FilePath) : Prop where
  distinct : s.catalog.PathsDistinct
  present : ∀ p ∈ s.catalog.paths, s.files.exists? p = true
  written : ∀ p ∈ s.catalog.paths, WrittenUnder library p

theorem mem_destinations {pair : FilePath × FilePath} (h : pair ∈ destinations env records) :
    ∃ r ∈ records, pair = (r.path, destination env r) := by
  unfold destinations at h
  rw [List.zip_map', List.mem_map] at h
  obtain ⟨r, hr, rfl⟩ := h
  exact ⟨r, hr, rfl⟩

section

variable {template : PathTemplate} (hlayout : env.layout = .template template)
  (hsources : ∀ r ∈ records, Outside env.config.libraryPath r.path)

include hlayout

theorem written_destination (r : Track) (h : Tried (destination env r) p) :
    WrittenUnder env.config.libraryPath p := by
  unfold destination at h
  rw [hlayout] at h
  exact template.writtenUnder r.fields r.path h

include hsources

theorem source_not_destination {pair : FilePath × FilePath} (h : pair ∈ destinations env records) :
    pair.1.same pair.2 = false := by
  obtain ⟨r, hr, rfl⟩ := mem_destinations h
  exact (hsources r hr).other (written_destination hlayout r (.inl rfl))

/-- Transfers into a library take paths that differ from each other and from those of the rows that stay. -/
theorem transfer_apart (hstrategy : env.config.fileStrategy ≠ .reference)
    (hlibrary : env.config.libraryPath.text ≠ "") (hl : s.files.NoLinks)
    (hrecorded : s.Recorded env.config.libraryPath) {xs : List Transfer}
    (h : s.trying (transfer env t records) = (.ok xs, s')) :
    (xs.map (·.dest)).Pairwise (fun p q => ¬ p.same q) ∧
      ∀ p ∈ keptPaths t s.catalog, ∀ x ∈ xs, ¬ p.same x.dest := by
  obtain ⟨claimed, u, hclaims, hplaced, -⟩ := transfer_claimed h
  have hclaimed := (transferClaims_ok hclaims).resolve_left hstrategy
  have hother (pair : FilePath × FilePath) (hpair : pair ∈ destinations env records) :
      pair.1.same pair.2 = false := source_not_destination hlayout hsources hpair
  have hthere : ∀ p ∈ claimed, IsEntry p ∧ s.files.exists? p = true := by
    intro p hp
    rw [hclaimed] at hp
    obtain ⟨dir, -, hp⟩ := List.mem_flatMap.mp (List.mem_of_mem_filter hp)
    have hrow : p ∈ s.catalog.paths := List.mem_of_mem_filter (List.mem_mergeSort.mp hp)
    exact ⟨(hrecorded.written p hrow).isEntry, hrecorded.present p hrow⟩
  have hentries : ∀ pair ∈ destinations env records,
      pair.1.same pair.2 = false ∧ ∀ p, Tried pair.2 p → IsEntry p := by
    intro pair hpair
    refine ⟨hother pair hpair, fun p hp => ?_⟩
    obtain ⟨r, -, rfl⟩ := mem_destinations hpair
    exact (written_destination hlayout r hp).isEntry
  obtain ⟨hdistinct, hrest⟩ := hplaced.apart hl hstrategy hentries hthere
  refine ⟨hdistinct, fun p hp x hx hsame => ?_⟩
  obtain ⟨pair, hpair, -, htried⟩ := hplaced.tried hstrategy hother x hx
  obtain ⟨r, hr, rfl⟩ := mem_destinations hpair
  have hlisted : p ∈ listedPaths s.catalog (records.map (destination env)) := by
    have hrow := (kept_sublist t s.catalog).subset hp
    apply listed_of_same hlibrary ?_ hrow (hrecorded.written p hrow) (List.mem_map_of_mem hr) htried hsame
    intro dest hdest q hq
    obtain ⟨r, -, rfl⟩ := List.mem_map.mp hdest
    exact written_destination hlayout r hq
  apply hrest p _ x hx hsame
  rw [hclaimed]
  exact List.mem_filter.mpr ⟨hlisted, by rw [not_freed_of_kept hrecorded.distinct hp, Bool.not_false]⟩

omit hsources in
theorem direct_destinations (hw : s.files.WellFormed) (hd : s.files.Direct env.config.libraryPath) :
    s.files.AllDirect (destinations env records) := by
  intro pair hpair p hp
  obtain ⟨r, -, rfl⟩ := mem_destinations hpair
  exact (written_destination hlayout r hp).direct hd hw

end

/-- From readable files outside of a library whose rows tell its files, transfers that succeed take paths that
differ from each other and from those of the rows that stay. Behind its last double dot the path of the library has
to go on from a directory that is there: then each of these paths gets the content of its source and no file
changes, and transfers that fail leave all the files as they were, except that the part of a copy that broke off
stays where it got to. -/
theorem transfer_all_or_nothing {template : PathTemplate} (hlayout : env.layout = .template template)
    (hstrategy : env.config.fileStrategy ≠ .reference) (hlibrary : env.config.libraryPath.text ≠ "")
    (hl : s.files.NoLinks) (hw : s.files.WellFormed) (hrecorded : s.Recorded env.config.libraryPath)
    (hsources : ∀ r ∈ records, Outside env.config.libraryPath r.path ∧ ∃ c, s.files.read r.path = .ok c)
    {result : Except ImportFailure (List Transfer)}
    (h : s.trying (transfer env t records) = (result, s')) :
    match result with
    | .ok xs => xs.map (·.source) = records.map (·.path) ∧
        (xs.map (·.dest)).Pairwise (fun p q => ¬ p.same q) ∧
        (∀ p ∈ keptPaths t s.catalog, ∀ x ∈ xs, ¬ p.same x.dest) ∧
        (s.files.Direct env.config.libraryPath → s.files.Keeps s'.files ∧
          ∀ x ∈ xs, ∃ c, s.files.read x.source = .ok c ∧ s'.files.read x.dest = .ok c)
    | .error e => s.files.Direct env.config.libraryPath →
        (∀ q, s'.files.contentAt? q = s.files.contentAt? q) ∨
          ∃ source dest target q, e = .apply t.key .transferFiles (some source) (.io .device) ∧
            (source, dest) ∈ destinations env records ∧ Tried dest target ∧
            Torn s.files s'.files source target q := by
  cases result with
  | ok xs =>
    have houtside := fun r hr => (hsources r hr).1
    obtain ⟨hdistinct, hkept⟩ := transfer_apart hlayout houtside hstrategy hlibrary hl hrecorded h
    obtain ⟨-, -, claimed, hplaced⟩ := transfer_ok h
    have hmap : xs.map (·.source) = records.map (·.path) := by
      rw [hplaced.sources, destinations, List.map_fst_zip (by simp)]
    refine ⟨hmap, hdistinct, hkept, fun hd => ?_⟩
    have hdirect : s.files.AllDirect (destinations env records) := direct_destinations hlayout hw hd
    refine ⟨hplaced.keeps hw hl hdirect, fun x hx => ?_⟩
    obtain ⟨r, hr, hsource⟩ := List.mem_map.mp (hmap ▸ List.mem_map_of_mem hx)
    obtain ⟨c, hc⟩ := (hsources r hr).2
    rw [hsource] at hc
    exact ⟨c, hc, hplaced.contents hw hl hdirect x hx c hc⟩
  | error e =>
    intro hd
    obtain ⟨-, hfiles | ⟨claimed, f, hplace, rfl⟩⟩ := transfer_error h
    · exact .inl fun q => by rw [hfiles]
    · obtain hrestored | ⟨hdevice, dest, target, q, hpair, htried, htorn⟩ :=
        placeAll_left hw hl (direct_destinations hlayout hw hd) hplace
      · exact .inl fun q => by rw [hrestored.content, Option.map_id']
      · exact .inr ⟨f.1, dest, target, q, by rw [hdevice], hpair, htried, htorn⟩

/-- A file whose title another file of the library has. -/
def arriving : Track := { path := ⟨"in/a.flac"⟩, title := some "A", album := some "X" }

def arrivingTask : Task := { key := "in", tracks := [arriving], isAlbum := true }

def arrivingFiles : FileTree :=
  { nodes := [(["in"], .directory), (["in", "a.flac"], .file "one".toUTF8), (["lib"], .directory),
      (["lib", "A.flac"], .file "old".toUTF8)] }

theorem arriving_noLinks : arrivingFiles.NoLinks := noLinks_of_nodes (by decide)

theorem arriving_wellFormed : arrivingFiles.WellFormed := .of_nodes (by decide) rfl

theorem arriving_read : arrivingFiles.read arriving.path = .ok "one".toUTF8 := toOption_eq_some.mp (by decide)

theorem arriving_outside {library : FilePath} {first : String} {rest : List Component}
    (hlibrary : library.components = .name first :: rest) (hfirst : first ≠ "in") :
    ∀ r ∈ [arriving], Outside library r.path ∧ ∃ c, arrivingFiles.read r.path = .ok c := by
  intro r hr
  obtain rfl := List.mem_singleton.mp hr
  refine ⟨fun names hnames => hfirst ?_, _, arriving_read⟩
  have hcomponents : arriving.path.components = [.name "in", .name "a.flac"] := by decide
  rw [hcomponents, hlibrary, List.cons_append] at hnames
  exact (Component.name.inj (List.cons.inj hnames).1).symm

/-- The other file is that of a row. -/
def rowedSession : Session :=
  { files := arrivingFiles
    catalog := { items := [{ id := 1, album := none, identityKey := "", track := { path := ⟨"lib/A.flac"⟩ } }] } }

theorem rowed_recorded : rowedSession.Recorded ⟨"lib"⟩ := by
  refine ⟨by decide, by decide, fun p hp => ?_⟩
  obtain rfl := List.mem_singleton.mp hp
  exact ⟨[], "A.flac", by simp, ⟨by decide, by decide, by decide, by decide⟩, .inl (by decide)⟩

/-- The file that arrives gets a number, and the other one stays. -/
theorem transfer_all_or_nothing_numbered : ∃ x s',
    rowedSession.trying (transfer (titleLibrary .copy) arrivingTask [arriving]) = (.ok [x], s') ∧
      x.dest = ⟨"lib/A (1).flac"⟩ ∧ rowedSession.files.Keeps s'.files ∧
      s'.files.read x.dest = .ok "one".toUTF8 := by
  have htaken : (rowedSession.trying (transfer (titleLibrary .copy) arrivingTask [arriving])).1.toOption.map
      (·.map (·.dest)) = some [⟨"lib/A (1).flac"⟩] := by decide +kernel
  rcases h : rowedSession.trying (transfer (titleLibrary .copy) arrivingTask [arriving]) with ⟨e | xs, s'⟩
  · simp [h, Except.toOption] at htaken
  · have hdests : xs.map (·.dest) = [⟨"lib/A (1).flac"⟩] := by simpa [h, Except.toOption] using htaken
    obtain ⟨x, rfl, hx⟩ := List.map_eq_singleton_iff.mp hdests
    obtain ⟨hmap, -, -, hdirect⟩ := transfer_all_or_nothing (s := rowedSession) rfl (by decide) (by decide)
      arriving_noLinks arriving_wellFormed rowed_recorded (arriving_outside rfl (by decide)) h
    obtain ⟨hkeeps, hcontents⟩ := hdirect (direct_of_not_climbs arriving_wellFormed (by decide))
    obtain ⟨c, hc, hread⟩ := hcontents x (.head _)
    have hsource : x.source = arriving.path := by simpa using hmap
    obtain rfl : c = "one".toUTF8 := by
      rw [hsource] at hc
      exact Except.ok.inj (hc.symm.trans arriving_read)
    exact ⟨x, s', rfl, hx, hkeeps, hread⟩

/-- A library whose path climbs out of a directory that is still to be made. -/
def climbingLibrary : Environment :=
  { titleLibrary .copy with config := { (titleLibrary .copy).config with libraryPath := ⟨"new/../lib"⟩ } }

/-- A file of such a library is overwritten. -/
theorem library_file_overwritten :
    ¬ ∀ (env : Environment) (template : PathTemplate) (t : Task) (records : List Track) (s s' : Session)
      (xs : List Transfer), env.layout = .template template → env.config.fileStrategy ≠ .reference →
      env.config.libraryPath.text ≠ "" → s.files.NoLinks → s.files.WellFormed →
      s.Recorded env.config.libraryPath →
      (∀ r ∈ records, Outside env.config.libraryPath r.path ∧ ∃ c, s.files.read r.path = .ok c) →
      s.trying (transfer env t records) = (.ok xs, s') → s.files.Keeps s'.files := by
  intro hall
  have hrecorded : Recorded { files := arrivingFiles } climbingLibrary.config.libraryPath :=
    ⟨by decide, by simp [Catalog.paths], by simp [Catalog.paths]⟩
  have hok : (Session.trying { files := arrivingFiles }
      (transfer climbingLibrary arrivingTask [arriving])).1.toOption.isSome = true := by decide +kernel
  rcases h : Session.trying { files := arrivingFiles } (transfer climbingLibrary arrivingTask [arriving]) with
    ⟨e | xs, s'⟩
  · simp [h, Except.toOption] at hok
  · have hkeeps := hall climbingLibrary _ arrivingTask [arriving] { files := arrivingFiles } s' xs rfl
      (by decide) (by decide) arriving_noLinks arriving_wellFormed hrecorded
      (arriving_outside rfl (by decide)) h ["lib", "A.flac"] "old".toUTF8 (by decide)
    have hgone : ((Session.trying { files := arrivingFiles }
        (transfer climbingLibrary arrivingTask [arriving])).2.files.contentAt? ["lib", "A.flac"]) ≠
          some "old".toUTF8 := by decide +kernel
    rw [h] at hgone
    exact hgone hkeeps

end Session
end MusicImport
