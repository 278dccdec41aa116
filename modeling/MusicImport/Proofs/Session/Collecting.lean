import Mathlib.Data.List.Basic
import MusicImport.Proofs.Session.Steps
import MusicImport.Session.Search

/-! What the sources propose for a task. Every search of a task goes to all sources in the order of their
registration, and a call that fails is as good as an answer with nothing. Of the candidates with one id the
first that was offered is kept, marked with the source that offered it. -/
namespace MusicImport

/-- A candidate as a source gave it in answer to a search. -/
structure Offer where
  query : SearchQuery
  source : RankedSource
  candidate : Candidate

/-- The candidate as it is collected. -/
def Offer.stamped (o : Offer) : Candidate := o.source.stamp o.candidate

@[simp] theorem Offer.stamped_id (o : Offer) : o.stamped.id = o.candidate.id := by
  obtain ⟨_, _, _ | _⟩ := o <;> rfl

@[simp] theorem Offer.stamped_source (o : Offer) : o.stamped.source = o.source.source.name := by
  obtain ⟨_, _, _ | _⟩ := o <;> rfl

@[simp] theorem Offer.stamped_priority (o : Offer) : o.stamped.priority = o.source.priority := by
  obtain ⟨_, _, _ | _⟩ := o <;> rfl

/-- The first offer of each id. -/
def firstOffers : List Offer → List Offer
  | [] => []
  | o :: os => o :: (firstOffers os).filter (·.candidate.id ≠ o.candidate.id)

variable {os : List Offer} {o : Offer}

theorem distinctById_stamped (os : List Offer) :
    distinctById (os.map Offer.stamped) = (firstOffers os).map Offer.stamped := by
  induction os with
  | nil => rfl
  | cons o os ih =>
    rw [List.map_cons, distinctById, ih, firstOffers, List.map_cons, List.filter_map]
    simp [Function.comp_def]

theorem firstOffers_sublist (os : List Offer) : (firstOffers os).Sublist os := by
  induction os with
  | nil => exact .refl []
  | cons o os ih => exact (List.filter_sublist.trans ih).cons_cons o

theorem firstOffers_nodup (os : List Offer) : ((firstOffers os).map (·.candidate.id)).Nodup := by
  induction os with
  | nil => exact .nil
  | cons o os ih =>
    rw [firstOffers, List.map_cons, List.nodup_cons]
    refine ⟨?_, ih.sublist (List.filter_sublist.map _)⟩
    simp

theorem mem_firstOffers : o ∈ firstOffers os ↔
    ∃ before after, os = before ++ o :: after ∧ ∀ p ∈ before, p.candidate.id ≠ o.candidate.id := by
  induction os with
  | nil => simp [firstOffers]
  | cons p os ih =>
    rw [firstOffers, List.mem_cons, List.mem_filter, ih]
    constructor
    · rintro (rfl | ⟨⟨before, after, rfl, hbefore⟩, hother⟩)
      · exact ⟨[], os, rfl, by simp⟩
      · refine ⟨p :: before, after, rfl, List.forall_mem_cons.mpr ⟨?_, hbefore⟩⟩
        exact Ne.symm (of_decide_eq_true hother)
    · rintro ⟨before, after, hsplit, hbefore⟩
      cases before with
      | nil => exact .inl (List.cons.inj hsplit).1.symm
      | cons q before =>
        obtain ⟨rfl, rfl⟩ := List.cons.inj hsplit
        obtain ⟨hother, hbefore⟩ := List.forall_mem_cons.mp hbefore
        exact .inr ⟨⟨before, after, rfl, hbefore⟩, decide_eq_true (Ne.symm hother)⟩

namespace SearchQuery

/-- A search for one id. -/
def isLookup : SearchQuery → Bool
  | .albumId _ | .recordingId _ => true
  | .albums _ _ _ _ | .recordings _ _ _ => false

/-- What a source answers to a search for some tracks. -/
def answer (tracks : List Track) (x : MetadataSource) : SearchQuery → Reply (List Candidate)
  | .albums _ artist album various => (x.albums tracks artist album various).map (·.map .album)
  | .recordings _ artist title =>
    match tracks.head? with
    | some track => (x.recordings track artist title).map (·.map .track)
    | none => .value []
  | .albumId id => (x.albumById id).map (·.toList.map .album)
  | .recordingId id => (x.recordingById id).map (·.toList.map .track)

end SearchQuery

/-- The search for single recordings, which goes by the first track. -/
def Task.recordingQuery (t : Task) (artist title : Option String) : List SearchQuery :=
  (t.tracks.head?.map fun track => .recordings track.path artist title).toList

/-- The searches for a task, in their order. Without a query of somebody's own an id that most tracks carry
is looked up first. -/
def Task.queries (t : Task) : Option ManualQuery → List SearchQuery
  | none =>
    let l := Likelies.ofTask t
    if t.isAlbum then
      (l.albumId.map .albumId).toList ++ [.albums t.tracks.length l.artist l.album l.variousArtists]
    else (l.trackId.map .recordingId).toList ++ t.recordingQuery l.artist l.title
  | some (.id value) => [if t.isAlbum then .albumId value else .recordingId value]
  | some (.terms artist title) =>
    if t.isAlbum then
      [.albums t.tracks.length (some artist) (some title) (Likelies.ofTask t).variousArtists]
    else t.recordingQuery (some artist) (some title)

namespace Session

variable {env : Environment} {s : Session} {t : Task} {q : SearchQuery} {tracks : List Track}

/-- What all sources propose, for a query of somebody's own if there is one. -/
def collectFor (env : Environment) (t : Task) : Option ManualQuery → Act (List Candidate)
  | none => collect env t
  | some query => collectManual env t query

/-- One search at all sources. -/
def consult (env : Environment) (tracks : List Track) (q : SearchQuery) : Act (List Candidate) :=
  askAll (fun x => askSource env q (q.answer tracks x.source) x) (rankedSources env.sources)

/-- Several searches, one after the other. -/
def consultAll (env : Environment) (tracks : List Track) : List SearchQuery → Act (List Candidate)
  | [] => return []
  | q :: rest => do
    let found ← consult env tracks q
    return found ++ (← consultAll env tracks rest)

theorem consultAll_append (env : Environment) (tracks : List Track) (qs rs : List SearchQuery) :
    consultAll env tracks (qs ++ rs) = do
      let found ← consultAll env tracks qs
      return found ++ (← consultAll env tracks rs) := by
  induction qs with
  | nil => simp [consultAll]
  | cons q qs ih =>
    simp only [List.cons_append, consultAll, ih, bind_assoc, pure_bind, List.append_assoc]

theorem consultAll_singleton (env : Environment) (tracks : List Track) (q : SearchQuery) :
    consultAll env tracks [q] = consult env tracks q := by simp [consultAll]

theorem lookUp_eq {byId : String → Act (List Candidate)} {f : String → SearchQuery}
    (h : ∀ id, byId id = consult env tracks (f id)) (id : Option String) :
    lookUp byId id = consultAll env tracks (id.map f).toList := by
  cases id with
  | none => rfl
  | some id => exact (h id).trans (consultAll_singleton ..).symm

theorem searchRecordings_eq (env : Environment) (t : Task) (artist title : Option String) :
    searchRecordings env t artist title = consultAll env t.tracks (t.recordingQuery artist title) := by
  unfold searchRecordings Task.recordingQuery
  cases htracks : t.tracks with
  | nil => rfl
  | cons track rest =>
    rw [List.head?_cons, Option.map_some, Option.toList_some, consultAll_singleton]
    rfl

/-- What is proposed is what the searches for a task find, one candidate for each id. -/
theorem collectFor_eq (env : Environment) (t : Task) (query : Option ManualQuery) :
    collectFor env t query = distinctById <$> consultAll env t.tracks (t.queries query) := by
  have halbums (artist album : Option String) (various : Bool) :
      searchAlbums env t artist album various =
        consultAll env t.tracks [.albums t.tracks.length artist album various] :=
    (consultAll_singleton ..).symm
  have hknownAlbum (id : Option String) :
      lookUp (albumsById env) id = consultAll env t.tracks (id.map .albumId).toList :=
    lookUp_eq (fun _ => rfl) id
  have hknownRecording (id : Option String) :
      lookUp (recordingsById env) id = consultAll env t.tracks (id.map .recordingId).toList :=
    lookUp_eq (fun _ => rfl) id
  cases query with
  | none =>
    simp only [collectFor, collect, Task.queries]
    split
    · rw [consultAll_append, halbums, hknownAlbum]
      simp
    · rw [consultAll_append, searchRecordings_eq, hknownRecording]
      simp
  | some query =>
    simp only [collectFor, collectManual]
    cases query with
    | id value =>
      cases halbum : t.isAlbum <;> simp [Task.queries, halbum, consultAll_singleton] <;> rfl
    | terms artist title =>
      cases halbum : t.isAlbum <;> simp [Task.queries, halbum, searchRecordings_eq, halbums]

/-- At most one lookup is made for a task, and at most one other search after it. -/
theorem queries_pairwise (t : Task) (query : Option ManualQuery) :
    (t.queries query).Pairwise fun q r => q.isLookup = true ∧ r.isLookup = false := by
  cases query with
  | none =>
    simp only [Task.queries, Task.recordingQuery]
    split
    · cases (Likelies.ofTask t).albumId <;> simp [SearchQuery.isLookup]
    · cases (Likelies.ofTask t).trackId <;> cases t.tracks <;> simp [SearchQuery.isLookup]
  | some query =>
    cases query with
    | id value => simp [Task.queries]
    | terms artist title =>
      simp only [Task.queries, Task.recordingQuery]
      split
      · simp
      · cases t.tracks <;> simp

/-- A search of a kind is made once for a task. -/
theorem queries_nodup (t : Task) (query : Option ManualQuery) : ((t.queries query).map (·.call)).Nodup := by
  refine List.pairwise_map.mpr ((queries_pairwise t query).imp fun {q r} hkinds hsame => ?_)
  cases q <;> cases r <;> simp_all [SearchQuery.isLookup, SearchQuery.call]

end Session

/-- Whether the `n`-th call of a kind is made to fail. -/
def Environment.fails (env : Environment) (call : Call) (n : Nat) : Bool :=
  env.faults.any (·.point.isAt call n)

/-- An answer, or nothing in place of none. -/
def Reply.orElse {α : Type} (nothing : α) : Reply α → Reply α
  | .value a => .value a
  | .failure _ | .silence => .value nothing

/-- A source that answers with nothing where a call fails or is not answered in time. -/
def MetadataSource.answering (x : MetadataSource) (fails : Call → Bool) : MetadataSource :=
  { name := x.name
    albums := fun tracks artist album various =>
      if fails .candidates then .value [] else (x.albums tracks artist album various).orElse []
    recordings := fun track artist title =>
      if fails .itemCandidates then .value [] else (x.recordings track artist title).orElse []
    albumById := fun id => if fails .albumForId then .value none else (x.albumById id).orElse none
    recordingById := fun id => if fails .trackForId then .value none else (x.recordingById id).orElse none }

/-- The candidates that an answer holds. -/
def Reply.given : Reply (List Candidate) → List Candidate
  | .value found => found
  | .failure _ | .silence => []

namespace Session

variable {env : Environment} {s u : Session} {t : Task} {q : SearchQuery} {tracks : List Track}

/-- The session after a source was asked. -/
def asked (env : Environment) (q : SearchQuery) (s : Session) (x : MetadataSource) : Session :=
  { s with
    log := s.log ++ [.searched x.name q]
    calls := q.call :: s.calls
    aborted := s.aborted || env.raises.any (·.isAt q.call (s.calls.count q.call + 1)) }

theorem doing_askSource (env : Environment) (q : SearchQuery) (reply : Reply (List Candidate))
    (x : RankedSource) (s : Session) : s.doing (askSource env q reply x) =
      (if env.fails q.call (s.calls.count q.call + 1) then [] else reply.given.map x.stamp,
        s.asked env q x.source) := by
  have henter : (s.doing (record (.searched x.source.name q))).2.doing (enter env q.call) =
      ((env.faults.find? (·.point.isAt q.call (s.calls.count q.call + 1))).map (·.failure),
        s.asked env q x.source) := rfl
  unfold askSource
  rw [doing_bind, doing_bind, henter]
  cases hfind : env.faults.find? (·.point.isAt q.call (s.calls.count q.call + 1)) with
  | none =>
    have hlives : env.fails q.call (s.calls.count q.call + 1) = false :=
      List.any_eq_false.mpr (List.find?_eq_none.mp hfind)
    rw [hlives]
    cases reply <;> rfl
  | some fault =>
    have hat := List.find?_some hfind
    have hfails : env.fails q.call (s.calls.count q.call + 1) = true :=
      List.any_eq_true.mpr ⟨fault, List.mem_of_find?_eq_some hfind, hat⟩
    rw [hfails]
    cases reply <;> rfl

/-- The sources with their places, counted from a number on. -/
def rankedFrom : Nat → List MetadataSource → List RankedSource
  | _, [] => []
  | n, x :: rest => ⟨x, n⟩ :: rankedFrom (n + 1) rest

theorem rankedFrom_eq (n : Nat) (sources : List MetadataSource) :
    rankedFrom n sources = sources.mapIdx fun i x => ⟨x, n + i⟩ := by
  induction sources generalizing n with
  | nil => rfl
  | cons x rest ih =>
    rw [rankedFrom, ih, List.mapIdx_cons]
    simp only [Nat.add_zero, Nat.add_right_comm, Nat.add_assoc]

/-- What one source offers: nothing where its call fails. The calls of a kind go to the sources in their
order, after those that were made before. -/
def offersOf (env : Environment) (s : Session) (tracks : List Track) (q : SearchQuery) (x : RankedSource) :
    List Offer :=
  if env.fails q.call (s.calls.count q.call + x.priority + 1) then []
  else (q.answer tracks x.source).given.map (Offer.mk q x)

/-- What all sources offer to one search, each at its place in the order of registration. -/
def offersTo (env : Environment) (s : Session) (tracks : List Track) (q : SearchQuery) : List Offer :=
  env.sources.zipIdx.flatMap fun x => offersOf env s tracks q ⟨x.1, x.2⟩

/-- What all sources offer to the searches for a task. -/
def offers (env : Environment) (s : Session) (t : Task) (query : Option ManualQuery) : List Offer :=
  (t.queries query).flatMap (offersTo env s t.tracks)

/-- The places of the sources are those that the search gives them. -/
theorem offersTo_eq (env : Environment) (s : Session) (tracks : List Track) (q : SearchQuery) :
    offersTo env s tracks q = (rankedSources env.sources).flatMap (offersOf env s tracks q) := by
  rw [offersTo, rankedSources, List.mapIdx_eq_zipIdx_map, List.flatMap_map]

/-- One source after the other is asked, from the one at place `n` on. -/
theorem doing_askAll {n : Nat} (sources : List MetadataSource)
    (hcount : u.calls.count q.call = s.calls.count q.call + n) :
    u.doing (askAll (fun x => askSource env q (q.answer tracks x.source) x) (rankedFrom n sources)) =
      (((rankedFrom n sources).flatMap (offersOf env s tracks q)).map Offer.stamped,
        sources.foldl (asked env q) u) := by
  induction sources generalizing n u with
  | nil => rfl
  | cons x rest ih =>
    have hnext : (u.asked env q x).calls.count q.call = s.calls.count q.call + (n + 1) := by
      rw [asked, List.count_cons_self, hcount]
      rfl
    have hfirst : (if env.fails q.call (u.calls.count q.call + 1) then []
        else (q.answer tracks x).given.map (RankedSource.mk x n).stamp) =
        (offersOf env s tracks q ⟨x, n⟩).map Offer.stamped := by
      rw [offersOf, hcount]
      split
      · rfl
      · rw [List.map_map]
        rfl
    rw [rankedFrom, askAll, doing_bind, doing_askSource, hfirst, doing_bind, ih hnext, doing_pure,
      List.flatMap_cons, List.map_append, List.foldl_cons]

theorem doing_consult (hcount : u.calls.count q.call = s.calls.count q.call) :
    u.doing (consult env tracks q) =
      ((offersTo env s tracks q).map Offer.stamped, env.sources.foldl (asked env q) u) := by
  have hranked : rankedSources env.sources = rankedFrom 0 env.sources := by
    simp [rankedFrom_eq, rankedSources]
  rw [consult, offersTo_eq, hranked]
  exact doing_askAll env.sources hcount

/-- Calls of another kind are not counted. -/
theorem count_foldl_asked {call : Call} (h : call ≠ q.call) (sources : List MetadataSource) (u : Session) :
    (sources.foldl (asked env q) u).calls.count call = u.calls.count call := by
  induction sources generalizing u with
  | nil => rfl
  | cons x rest ih =>
    rw [List.foldl_cons, ih, asked]
    exact List.count_cons_of_ne (Ne.symm h)

/-- Each search finds what is offered to it, whatever the searches before were. -/
theorem doing_consultAll {qs : List SearchQuery} (hnodup : (qs.map (·.call)).Nodup)
    (hcount : ∀ q ∈ qs, u.calls.count q.call = s.calls.count q.call) :
    (u.doing (consultAll env tracks qs)).1 = (qs.flatMap (offersTo env s tracks)).map Offer.stamped := by
  induction qs generalizing u with
  | nil => rfl
  | cons q qs ih =>
    rw [List.map_cons, List.nodup_cons] at hnodup
    rw [consultAll, doing_bind, doing_consult (hcount q (.head _)), doing_bind]
    have hlater := ih (u := env.sources.foldl (asked env q) u) hnodup.2 fun p hp => by
      rw [count_foldl_asked ?_ env.sources u, hcount p (.tail _ hp)]
      exact fun heq => hnodup.1 (heq ▸ List.mem_map_of_mem hp)
    rw [hlater]
    simp

/-- The environment in which every search that fails after a session is answered with nothing. -/
def answering (env : Environment) (s : Session) : Environment :=
  { env with
    faults := []
    sources := env.sources.mapIdx fun i x =>
      x.answering fun call => env.fails call (s.calls.count call + i + 1) }

theorem given_answering (tracks : List Track) (x : MetadataSource) (fails : Call → Bool) (q : SearchQuery) :
    (q.answer tracks (x.answering fails)).given =
      if fails q.call then [] else (q.answer tracks x).given := by
  have hgiven {α : Type} (f : α → List Candidate) (nothing : α) (hnothing : f nothing = []) (c : Bool)
      (reply : Reply α) : ((if c then .value nothing else reply.orElse nothing : Reply α).map f).given =
        if c then [] else (reply.map f).given := by
    cases c <;> cases reply <;> simp [Reply.orElse, Reply.map, Reply.given, hnothing]
  cases q with
  | albums _ artist album various => exact hgiven _ [] rfl _ _
  | recordings _ artist title =>
    simp only [SearchQuery.answer]
    cases tracks.head? with
    | none => cases fails (SearchQuery.recordings _ artist title).call <;> rfl
    | some track => exact hgiven _ [] rfl _ _
  | albumId id => exact hgiven _ none rfl _ _
  | recordingId id => exact hgiven _ none rfl _ _

/-- Where no call fails, the same is offered as where those that fail offer nothing. -/
theorem offersTo_answering (env : Environment) (s u : Session) (tracks : List Track) (q : SearchQuery) :
    (offersTo (answering env s) u tracks q).map Offer.stamped =
      (offersTo env s tracks q).map Offer.stamped := by
  have hranked : rankedSources (answering env s).sources = (rankedSources env.sources).map fun x =>
      ⟨x.source.answering fun call => env.fails call (s.calls.count call + x.priority + 1), x.priority⟩ := by
    apply List.ext_getElem?
    intro i
    simp [rankedSources, answering, Function.comp_def]
  rw [offersTo_eq, offersTo_eq, hranked, List.map_flatMap, List.flatMap_map, List.map_flatMap]
  congr 1
  funext x
  have hlives : (answering env s).fails q.call (u.calls.count q.call + x.priority + 1) = false := rfl
  rw [offersOf, offersOf, hlives, if_neg Bool.false_ne_true, given_answering]
  split
  · rfl
  · rw [List.map_map, List.map_map]
    rfl

/-- A source is asked the same way, whatever it answers. -/
theorem foldl_asked_mapIdx {env' : Environment} (hraises : env'.raises = env.raises)
    {f : Nat → MetadataSource → MetadataSource} (hname : ∀ i x, (f i x).name = x.name)
    (sources : List MetadataSource) (u : Session) :
    (sources.mapIdx f).foldl (asked env' q) u = sources.foldl (asked env q) u := by
  induction sources generalizing f u with
  | nil => rfl
  | cons x rest ih =>
    rw [List.mapIdx_cons, List.foldl_cons, List.foldl_cons, ih fun i => hname (i + 1)]
    simp only [asked, hname, hraises]

theorem consultAll_answering {qs : List SearchQuery} (hnodup : (qs.map (·.call)).Nodup)
    (hcount : ∀ q ∈ qs, u.calls.count q.call = s.calls.count q.call) :
    u.doing (consultAll (answering env s) tracks qs) = u.doing (consultAll env tracks qs) := by
  induction qs generalizing u with
  | nil => rfl
  | cons q qs ih =>
    rw [List.map_cons, List.nodup_cons] at hnodup
    have hq := hcount q (.head _)
    have hasked : (answering env s).sources.foldl (asked (answering env s) q) u =
        env.sources.foldl (asked env q) u := by
      refine foldl_asked_mapIdx rfl ?_ env.sources u
      exact fun _ _ => rfl
    have hconsult : u.doing (consult (answering env s) tracks q) = u.doing (consult env tracks q) := by
      rw [doing_consult (s := u) rfl, doing_consult hq, offersTo_answering, hasked]
    have hlater := ih (u := (u.doing (consult env tracks q)).2) hnodup.2 fun p hp => by
      rw [doing_consult hq, count_foldl_asked ?_ env.sources u, hcount p (.tail _ hp)]
      exact fun heq => hnodup.1 (heq ▸ List.mem_map_of_mem hp)
    rw [consultAll, consultAll, doing_bind, doing_bind, hconsult, doing_bind, doing_bind, hlater]

/-- An offer stands before those in answer to searches that are made later, and among those in answer to the
same search before the offers of sources that were registered later. Ids are looked up first. -/
def NotAfter (o p : Offer) : Prop :=
  (o.query.isLookup = true ∧ p.query.isLookup = false) ∨
    (o.query = p.query ∧ o.source.priority ≤ p.source.priority)

theorem rankedSources_pairwise (sources : List MetadataSource) :
    (rankedSources sources).Pairwise fun x y => x.priority < y.priority := by
  simp [rankedSources, List.pairwise_iff_getElem]

theorem mem_offersOf {x : RankedSource} {o : Offer} (h : o ∈ offersOf env s tracks q x) :
    o.query = q ∧ o.source = x := by
  unfold offersOf at h
  split at h
  · cases h
  · obtain ⟨_, -, rfl⟩ := List.mem_map.mp h
    exact ⟨rfl, rfl⟩

theorem mem_offersTo {o : Offer} (h : o ∈ offersTo env s tracks q) :
    o.query = q ∧ env.sources[o.source.priority]? = some o.source.source := by
  obtain ⟨⟨x, i⟩, hx, ho⟩ := List.mem_flatMap.mp h
  obtain ⟨hquery, hsource⟩ := mem_offersOf ho
  rw [hsource]
  exact ⟨hquery, List.mk_mem_zipIdx_iff_getElem?.mp hx⟩

/-- Offers come in the order of the searches, and those to one search in the order of the sources. -/
theorem offers_pairwise (env : Environment) (s : Session) (t : Task) (query : Option ManualQuery) :
    (offers env s t query).Pairwise NotAfter := by
  refine List.pairwise_flatMap.mpr ⟨fun q _ => ?_, ?_⟩
  · rw [offersTo_eq]
    refine List.pairwise_flatMap.mpr ⟨fun x _ => ?_, ?_⟩
    · refine List.pairwise_of_forall_mem_list fun o ho p hp => .inr ?_
      obtain ⟨rfl, hx⟩ := mem_offersOf ho
      obtain ⟨hquery, hy⟩ := mem_offersOf hp
      exact ⟨hquery.symm, Nat.le_of_eq (by rw [hx, hy])⟩
    · refine (rankedSources_pairwise env.sources).imp fun {x y} hlt o ho p hp => .inr ?_
      obtain ⟨hquery, rfl⟩ := mem_offersOf ho
      obtain ⟨hquery', rfl⟩ := mem_offersOf hp
      exact ⟨hquery.trans hquery'.symm, Nat.le_of_lt hlt⟩
  · refine (queries_pairwise t query).imp fun {q r} hkinds o ho p hp => .inl ?_
    rw [(mem_offersTo ho).1, (mem_offersTo hp).1]
    exact hkinds

/-- Whatever the sources answer and whichever calls fail, for every id that is offered the first offer is
collected, marked with the name and the place of its source, and nothing else. What is collected stands in
the order of the offers: what was found by an id before what was searched for, and each in the order of
the sources. All is as if the calls that fail had been answered with nothing. -/
theorem collectFor_offers (env : Environment) (t : Task) (query : Option ManualQuery) (s : Session) :
    let found := (s.doing (collectFor env t query)).1
    (found.map (·.id)).Nodup ∧
      (∃ kept : List Offer, found = kept.map Offer.stamped ∧ kept.Sublist (offers env s t query) ∧
        kept.Pairwise NotAfter ∧
        (∀ o, o ∈ kept ↔ ∃ before after, offers env s t query = before ++ o :: after ∧
          ∀ p ∈ before, p.candidate.id ≠ o.candidate.id) ∧
        ∀ o ∈ kept, env.sources[o.source.priority]? = some o.source.source ∧
          o.stamped.source = o.source.source.name ∧ o.stamped.priority = o.source.priority) ∧
      s.doing (collectFor (answering env s) t query) = s.doing (collectFor env t query) := by
  have hnodup := queries_nodup t query
  have hfound : (s.doing (collectFor env t query)).1 =
      (firstOffers (offers env s t query)).map Offer.stamped := by
    rw [collectFor_eq, doing_map, doing_consultAll (s := s) hnodup fun _ _ => rfl]
    exact distinctById_stamped _
  have hsublist := firstOffers_sublist (offers env s t query)
  intro found
  refine ⟨?_, ⟨_, hfound, hsublist, (offers_pairwise env s t query).sublist hsublist,
    fun _ => mem_firstOffers, fun o ho => ?_⟩, ?_⟩
  · rw [show found = _ from hfound, List.map_map]
    simpa [Function.comp_def] using firstOffers_nodup (offers env s t query)
  · obtain ⟨q, -, hoffer⟩ := List.mem_flatMap.mp (hsublist.subset ho)
    exact ⟨(mem_offersTo hoffer).2, o.stamped_source, o.stamped_priority⟩
  · rw [collectFor_eq, collectFor_eq, doing_map, doing_map, consultAll_answering hnodup fun _ _ => rfl]

/-- A source that fails does not take the place of another, and an album that was looked up comes before those
that were searched for. -/
example :
    let album (id : String) : AlbumCandidate := { id, artist := "P", album := "A", tracks := [] }
    let env : Environment :=
      { config := {}, layout := .template ⟨"", true⟩
        sources := [.failing "first" "down", .ofStock "second" [album "x", album "y"] [],
          .ofStock "third" [album "y", album "z"] []] }
    let t : Task := { key := "in", tracks := [{ path := ⟨"in/a.flac"⟩, albumId := some "z" }], isAlbum := true }
    (({ files := {} } : Session).doing (collect env t)).1.map (fun c => (c.id, c.source, c.priority)) =
      [("z", "third", 2), ("x", "second", 1), ("y", "second", 1)] := by decide +kernel

end Session
end MusicImport
