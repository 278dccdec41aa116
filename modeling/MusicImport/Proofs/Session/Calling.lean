import MusicImport.Proofs.Session.Steps
import MusicImport.Session.Resolve

/-! Steps that consist of calls, none of which is a question. Whatever a relation says of the sessions
before and after every such call, it says of those before and after the steps. -/
namespace MusicImport

/-- A question that is put to somebody. -/
def Call.asks : Call → Bool
  | .chooseMatch | .resolveDuplicate => true
  | _ => false

namespace Session

variable {ε α : Type} {env : Environment} {R : Session → Session → Prop}

/-- What a relation has to say of calls. -/
structure Calls (env : Environment) (R : Session → Session → Prop) : Prop where
  steady : Steady R
  enters : ∀ call, call.asks = false → Does R (enter env call)

namespace Calls

theorem attempts (h : Calls env R) {call : Call} (hcall : call.asks = false) :
    Tries R (attempt env call) := by
  refine h.steady.tries_bind (h.enters call hcall).lift fun failure => ?_
  split
  · exact h.steady.tries_throw _
  · exact h.steady.tries_pure _

/-- A call that is answered with a part of the session. -/
theorem answers (h : Calls env R) {call : Call} (hcall : call.asks = false) (f : Session → α) :
    Tries R (do attempt env call; return f (← get)) :=
  h.steady.tries_bind (h.attempts hcall) fun _ =>
    h.steady.tries_bind h.steady.tries_get fun _ => h.steady.tries_pure _

theorem findDuplicates (h : Calls env R) (identity : Identity) :
    Tries R (findDuplicates env identity) := h.answers rfl _

theorem entryTracks (h : Calls env R) (id : EntryId) : Tries R (entryTracks env id) := by
  cases id with
  | album id => exact h.answers rfl _
  | item id => exact h.answers rfl _

theorem pathsUnder (h : Calls env R) (dir : FilePath) : Tries R (pathsUnder env dir) := h.answers rfl _

theorem begin (h : Calls env R) : Tries R (begin env) := h.answers rfl _

theorem rollback (h : Calls env R) : Tries R (rollback env) := h.attempts rfl

theorem pathsUnderAll (h : Calls env R) (dirs : List FilePath) : Tries R (pathsUnderAll env dirs) := by
  induction dirs with
  | nil => exact h.steady.tries_pure _
  | cons dir rest ih =>
    exact h.steady.tries_bind (h.pathsUnder dir) fun _ =>
      h.steady.tries_bind ih fun _ => h.steady.tries_pure _

theorem entryPaths (h : Calls env R) (ids : List EntryId) : Tries R (entryPaths env ids) := by
  induction ids with
  | nil => exact h.steady.tries_pure _
  | cons id rest ih =>
    exact h.steady.tries_bind (h.entryTracks id) fun _ =>
      h.steady.tries_bind ih fun _ => h.steady.tries_pure _

theorem claimedPaths (h : Calls env R) (t : Task) (dests : List FilePath) :
    Tries R (claimedPaths env t dests) :=
  h.steady.tries_bind (h.pathsUnderAll _) fun _ =>
    h.steady.tries_bind (h.entryPaths _) fun _ => h.steady.tries_pure _

theorem removeAll (h : Calls env R) (tx : Catalog) (ids : List EntryId) :
    Tries R (removeAll env tx ids) := by
  induction ids generalizing tx with
  | nil => exact h.steady.tries_pure _
  | cons id rest ih =>
    refine h.steady.tries_bind ?_ fun ⟨_, tx⟩ =>
      h.steady.tries_bind (ih tx) fun _ => h.steady.tries_pure _
    exact h.steady.tries_bind (h.attempts rfl) fun _ => h.steady.tries_except _

/-- Until it is committed, a transaction is nothing but a value. -/
theorem writeRows (h : Calls env R) (tx : Catalog) (t : Task) (choice : Chosen) (placed : List Track) :
    Tries R (writeRows env tx t choice placed) := by
  refine h.steady.tries_bind (h.removeAll tx _) fun ⟨_, tx⟩ => ?_
  have add {call : Call} (hcall : call.asks = false) {γ : Type} (value : γ) :
      Tries R (attempt env call >>= fun _ => pure value) :=
    h.steady.tries_bind (h.attempts hcall) fun _ => h.steady.tries_pure _
  simp only
  split
  · exact h.steady.tries_bind (add rfl _) fun _ => h.steady.tries_pure _
  · exact h.steady.tries_bind (add rfl _) fun _ => h.steady.tries_pure _

theorem absorbAll (h : Calls env R) (known : List FilePath) (t : Task) (existing : List CatalogEntry) :
    Tries R (absorbAll env known t existing) := by
  induction existing generalizing t with
  | nil => exact h.steady.tries_pure _
  | cons e rest ih => exact h.steady.tries_bind ((h.entryTracks e.id).adapt _) fun tracks => ih _

/-- Apart from calls, removing old entries puts a catalog and files in place. -/
theorem removeOld (h : Calls env R) (hset : ∀ s catalog files, R s { s with catalog, files }) (t : Task)
    (existing : List CatalogEntry) : Tries R (removeOld env t existing) := by
  refine h.steady.tries_bind h.begin fun tx => ?_
  refine h.steady.tries_bind ?_ fun ⟨paths, tx⟩ => ?_
  · exact h.steady.tries_tryCatch (h.removeAll tx _) fun _ =>
      h.steady.tries_bind h.rollback fun _ => h.steady.tries_throw _
  · refine h.steady.tries_bind ?_ fun _ s => hset s s.catalog _
    exact h.steady.tries_bind (h.attempts rfl) fun _ s => hset s tx s.files

end Calls

theorem Steady.advance (hR : Steady R) (t : Task) (next : TaskState) : Tries R (advance t next) := by
  unfold Session.advance
  split
  · exact hR.tries_pure _
  · exact hR.tries_throw _

theorem Steady.regardless (hR : Steady R) {x : Attempt ε Unit} (hx : Tries R x) :
    Does R (regardless x) := hR.does_bind hx.run fun _ => hR.does_pure _

/-- What a relation has to say of searches. -/
structure Searches (env : Environment) (R : Session → Session → Prop) : Prop extends Calls env R where
  records : ∀ source query, Does R (record (.searched source query))

namespace Searches

theorem askSource (h : Searches env R) (query : SearchQuery) (reply : Reply (List Candidate))
    (x : RankedSource) : Does R (askSource env query reply x) := by
  refine h.steady.does_bind (h.records _ _) fun _ => ?_
  refine h.steady.does_bind (h.enters _ (by cases query <;> rfl)) fun failure => ?_
  split <;> exact h.steady.does_pure _

theorem askAll (h : Searches env R) {f : RankedSource → Act (List Candidate)} (hf : ∀ x, Does R (f x))
    (sources : List RankedSource) : Does R (askAll f sources) := by
  induction sources with
  | nil => exact h.steady.does_pure _
  | cons x rest ih =>
    exact h.steady.does_bind (hf x) fun _ => h.steady.does_bind ih fun _ => h.steady.does_pure _

theorem searchAlbums (h : Searches env R) (t : Task) (artist album : Option String) (various : Bool) :
    Does R (searchAlbums env t artist album various) := h.askAll (fun _ => h.askSource _ _ _) _

theorem searchRecordings (h : Searches env R) (t : Task) (artist title : Option String) :
    Does R (searchRecordings env t artist title) := by
  unfold Session.searchRecordings
  split
  · exact h.steady.does_pure _
  · exact h.askAll (fun _ => h.askSource _ _ _) _

theorem albumsById (h : Searches env R) (id : String) : Does R (albumsById env id) :=
  h.askAll (fun _ => h.askSource _ _ _) _

theorem recordingsById (h : Searches env R) (id : String) : Does R (recordingsById env id) :=
  h.askAll (fun _ => h.askSource _ _ _) _

theorem lookUp (h : Searches env R) {byId : String → Act (List Candidate)}
    (hbyId : ∀ id, Does R (byId id)) (id : Option String) : Does R (lookUp byId id) := by
  cases id with
  | none => exact h.steady.does_pure _
  | some id => exact hbyId id

theorem collect (h : Searches env R) (t : Task) : Does R (collect env t) := by
  unfold Session.collect
  dsimp only
  split
  · exact h.steady.does_bind (h.lookUp h.albumsById _) fun _ =>
      h.steady.does_bind (h.searchAlbums t _ _ _) fun _ => h.steady.does_pure _
  · exact h.steady.does_bind (h.lookUp h.recordingsById _) fun _ =>
      h.steady.does_bind (h.searchRecordings t _ _) fun _ => h.steady.does_pure _

theorem collectManual (h : Searches env R) (t : Task) (query : ManualQuery) :
    Does R (collectManual env t query) := by
  unfold Session.collectManual
  split
  · exact h.steady.does_bind (h.albumsById _) fun _ => h.steady.does_pure _
  · exact h.steady.does_bind (h.recordingsById _) fun _ => h.steady.does_pure _
  · exact h.steady.does_bind (h.searchAlbums t _ _ _) fun _ => h.steady.does_pure _
  · exact h.steady.does_bind (h.searchRecordings t _ _) fun _ => h.steady.does_pure _

theorem search (h : Searches env R) (t : Task) (query : Option ManualQuery) :
    Tries R (search env t query) := by
  refine h.steady.tries_bind (h.steady.advance t _) fun t => ?_
  cases query with
  | none => exact h.steady.tries_bind (h.collect t).lift fun _ => h.steady.tries_pure _
  | some q => exact h.steady.tries_bind (h.collectManual t q).lift fun _ => h.steady.tries_pure _

theorem merge (h : Searches env R) (t : Task) (existing : List CatalogEntry) :
    Tries R (merge env t existing) :=
  h.steady.tries_bind (h.absorbAll _ t existing) fun _ => h.search _ none

end Searches

/-- What a relation has to say of the stages of applying a task, before anybody is told of it. -/
structure Applies (env : Environment) (R : Session → Session → Prop) : Prop extends Calls env R where
  writes : ∀ path fields, Does R (record (.wrote path fields))
  sets : ∀ (s : Session) files tags catalog, R s { s with files, tags, catalog }

namespace Applies

theorem transferClaims (h : Applies env R) (t : Task) (dests : List FilePath) :
    Tries R (transferClaims env t dests) := by
  unfold Session.transferClaims
  split
  · exact h.steady.tries_pure _
  · exact (h.claimedPaths t dests).adapt _

theorem transfer (h : Applies env R) (t : Task) (records : List Track) : Tries R (transfer env t records) := by
  refine h.steady.tries_bind (h.transferClaims t _) fun claimed s => ?_
  rw [trying_bind, trying_get]
  dsimp only
  rw [trying_bind, trying_set]
  dsimp only
  split
  · exact h.sets s _ s.tags s.catalog
  · exact h.sets s _ s.tags s.catalog

theorem writeTags (h : Applies env R) (p : FilePath) (f : TagFields) : Tries R (writeTags env p f) := by
  refine h.steady.tries_bind (h.writes p f).lift fun _ => h.steady.tries_bind (h.attempts rfl) fun _ s => ?_
  rw [trying_bind, trying_get]
  dsimp only
  cases s.tags.write s.files p f with
  | error e => exact h.sets s _ s.tags s.catalog
  | ok r => exact h.sets s r.2 r.1 s.catalog

theorem writeAllTags (h : Applies env R) (t : Task) (xs : List (Transfer × TagFields)) :
    Tries R (writeAllTags env t xs) := by
  induction xs with
  | nil => exact h.steady.tries_pure _
  | cons x rest ih =>
    unfold Session.writeAllTags
    dsimp only
    split
    · exact h.steady.tries_bind ((h.writeTags _ _).adapt _) fun _ => ih
    · exact ih

theorem takeBack (h : Applies env R) (transfers : List Transfer) (completed : List ApplyStep)
    {x : Attempt ImportFailure α} (hx : Tries R x) : Tries R (takeBack env transfers completed x) := by
  refine h.steady.tries_bind hx.run.lift fun r => ?_
  cases r with
  | ok a => exact h.steady.tries_pure _
  | error failure =>
    exact h.steady.tries_bind (fun s => h.sets s _ s.tags s.catalog) fun _ => h.steady.tries_throw _

theorem retag (h : Applies env R) (t : Task) (choice : Chosen) (previous : List ApplyStep)
    (transfers : List Transfer) : Tries R (retag env t choice previous transfers) := by
  unfold Session.retag
  split
  · exact h.takeBack _ _ (h.writeAllTags t _)
  · exact h.steady.tries_pure _

theorem commitRows (h : Applies env R) (t : Task) (choice : Chosen) (placed : List Track) :
    Tries R (commitRows env t choice placed) := by
  refine h.steady.tries_bind h.begin fun tx => h.steady.tries_bind ?_ fun ⟨entries, tx⟩ => ?_
  · exact h.steady.tries_tryCatch (h.writeRows tx t choice placed) fun _ =>
      h.steady.tries_bind (h.steady.regardless h.rollback).lift fun _ => h.steady.tries_throw _
  · refine h.steady.tries_bind ?_ fun _ => h.steady.tries_pure _
    exact h.steady.tries_bind (h.attempts rfl) fun _ s => h.sets s s.files s.tags tx

theorem removeSources (h : Applies env R) (t : Task) (paths : List FilePath) :
    Tries R (removeSources t paths) := by
  intro s
  unfold Session.removeSources
  rw [trying_bind, trying_get]
  dsimp only
  rw [trying_bind, trying_set]
  dsimp only
  split
  · exact h.sets s _ s.tags s.catalog
  · exact h.sets s _ s.tags s.catalog

theorem finishMove (h : Applies env R) (t : Task) (completed : List ApplyStep) (paths : List FilePath) :
    Tries R (finishMove env t completed paths) := by
  unfold Session.finishMove
  split
  · exact h.steady.tries_bind ((h.removeSources t paths).adapt _) fun _ => h.steady.tries_pure _
  · exact h.steady.tries_pure _

/-- Those who are told of an import are told one after the other. -/
theorem notify (h : Applies env R) (htells : ∀ observer event, Does R (record (.imported observer event)))
    (event : ImportEvent) (observers : List String) : Does R (notify env event observers) := by
  induction observers with
  | nil => exact h.steady.does_pure _
  | cons observer rest ih =>
    exact h.steady.does_bind (htells observer event) fun _ =>
      h.steady.does_bind (h.enters .onImport rfl) fun _ => ih

theorem apply (h : Applies env R) (htells : ∀ observer event, Does R (record (.imported observer event)))
    (t : Task) : Tries R (apply env t) := by
  unfold Session.apply
  dsimp only
  split
  · exact h.steady.tries_bind (h.finishMove t _ _) fun _ =>
      h.steady.tries_bind (h.notify htells _ _).lift fun _ => h.steady.tries_pure _
  · refine h.steady.tries_bind ((h.transfer t _).adapt _) fun transfers => ?_
    refine h.steady.tries_bind (h.retag t _ _ transfers) fun _ => ?_
    refine h.steady.tries_bind (h.takeBack _ _ ((h.commitRows t _ _).adapt _)) fun entries => ?_
    exact h.steady.tries_bind (h.finishMove t _ _) fun _ =>
      h.steady.tries_bind (h.notify htells _ _).lift fun _ => h.steady.tries_pure _

end Applies

end Session
end MusicImport
