import CodeQuality.Retrieval.Store

namespace CodeQuality
namespace Retrieval
namespace Store

/-!
Repositories in a store.
-/

/-- Add the documents of a repository to a store and save it.  The number of documents is given
back with the store. -/
def indexRepository (store : Store) (environment : Environment) (path : String) :
    Action (Nat × Store) := do
  let corpus ← Action.ofOutcome (Corpus.build environment (← get).files path)
  let grown ← store.add environment (.arr corpus.documents)
  grown.save
  pure (corpus.documents.length, grown)

end Store
end Retrieval
end CodeQuality
