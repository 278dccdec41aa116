/-! Answers to the questions an import asks. -/
namespace MusicImport

/-- A search as somebody asked for it. -/
inductive ManualQuery
  | terms (artist title : String)
  | id (value : String)
deriving DecidableEq

/-- Which outcome a task is to have. -/
inductive MatchDecision
  | applyBest
  | applyCandidate (rank : Nat)
  | useAsIs
  | asSingletons
  | manualSearch (query : ManualQuery)
  | skip
  | abort
deriving DecidableEq

/-- What to do about entries that are already in the catalog. -/
inductive DuplicateDecision
  | skipNew
  | keepBoth
  | removeOld
  | merge
deriving DecidableEq

def DuplicateDecision.name : DuplicateDecision → String
  | .skipNew => "skip_new"
  | .keepBoth => "keep_both"
  | .removeOld => "remove_old"
  | .merge => "merge"

def DuplicateDecision.all : List DuplicateDecision := [.skipNew, .keepBoth, .removeOld, .merge]

end MusicImport
