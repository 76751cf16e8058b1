import AuditFlow.Ingest.Chunker

/-!
# Contracts in a file, and their cached identities

A contract as it stands in a JSON file, where its context may be missing or `null`, and what
`ingest/preamble.py` and `load_cached_identities` of `ingest/identity_extraction.py` read of it:
identities are cached under the hash of a preamble, the first characters of the context.

The cache is asked for **every** contract, with `doc["context"][:PREAMBLE_CHARS]`; so it is loaded
only if each of them has a context (`exists_loadCachedIdentities_iff`).
-/

namespace AuditFlow

open Foundation

/-- What stands under the key `context`. -/
inductive ContextField
  | missing
  | null
  | text (context : String)
  deriving DecidableEq, Repr

/-- A contract of a JSON file. -/
structure JsonContract where
  title : String
  context : ContextField
  deriving DecidableEq, Repr

/-- `contract.get("context")`. -/
def ContextField.get : ContextField → Option String
  | .missing | .null => none
  | .text context => some context

/-- `contract["context"]`, which is then cut. -/
def ContextField.subscript : ContextField → Except PyError String
  | .missing => .error { cls := .keyError, message := "'context'" }
  | .null => .error { cls := .typeError, message := "'NoneType' object is not subscriptable" }
  | .text context => .ok context

/-- The contract that is ingested. -/
def JsonContract.toContract (contract : JsonContract) : Contract where
  title := contract.title
  context := contract.context.get

/-- `PREAMBLE_CHARS`. -/
def preambleChars : ℕ := 1500

/-- `text[:PREAMBLE_CHARS]`. -/
def preambleOf (text : String) : String := String.ofList (text.toList.take preambleChars)

section

variable (env : IngestEnv)

/-- `hash_preamble`. -/
def hashPreamble (text : String) : String := env.sha256.hex16 text

/-- The loop of `load_cached_identities`. -/
def collectIdentities (cache : Dict String DocumentIdentity) :
    Dict String DocumentIdentity → List JsonContract → Except PyError (Dict String DocumentIdentity)
  | identities, [] => .ok identities
  | identities, doc :: documents =>
    match doc.context.subscript with
    | .error e => .error e
    | .ok context =>
      let docHash := hashPreamble env (preambleOf context)
      match cache.get? docHash with
      | some identity => collectIdentities cache (identities.set docHash identity) documents
      | none => collectIdentities cache identities documents

/-- `load_cached_identities`, from what `_load_cache` has read. -/
def loadCachedIdentities (cache : Dict String DocumentIdentity) (documents : List JsonContract) :
    Except PyError (Dict String DocumentIdentity) :=
  collectIdentities env cache .empty documents

variable {env} {cache : Dict String DocumentIdentity}
  {identities identities' : Dict String DocumentIdentity} {documents : List JsonContract}

private theorem exists_collectIdentities_iff :
    (∃ identities', collectIdentities env cache identities documents = .ok identities') ↔
      ∀ doc ∈ documents, ∃ text, doc.context = .text text := by
  induction documents generalizing identities with
  | nil => exact iff_of_true ⟨identities, rfl⟩ fun _ h => nomatch h
  | cons doc documents ih =>
    rw [List.forall_mem_cons, collectIdentities]
    rcases hcontext : doc.context with - | - | text
    · exact iff_of_false (by rintro ⟨_, ⟨⟩⟩) (by rintro ⟨⟨_, ⟨⟩⟩, _⟩)
    · exact iff_of_false (by rintro ⟨_, ⟨⟩⟩) (by rintro ⟨⟨_, ⟨⟩⟩, _⟩)
    · simp only [ContextField.subscript]
      rw [and_iff_right ⟨text, rfl⟩]
      split
      · exact ih
      · exact ih

/-- **The cache is loaded** exactly if every document has a context, be it blank. -/
theorem exists_loadCachedIdentities_iff :
    (∃ identities, loadCachedIdentities env cache documents = .ok identities) ↔
      ∀ doc ∈ documents, ∃ text, doc.context = .text text := exists_collectIdentities_iff

/-- The identities of the documents are those of the cache. -/
private theorem get?_collectIdentities {k : String}
    (h : collectIdentities env cache identities documents = .ok identities')
    (hk : identities.get? k = cache.get? k ∨ identities.get? k = none ∧
      ∃ doc ∈ documents, ∃ text, doc.context = .text text ∧
        k = hashPreamble env (preambleOf text)) :
    identities'.get? k = cache.get? k := by
  induction documents generalizing identities with
  | nil =>
    obtain rfl := Except.ok.inj h
    rcases hk with hk | ⟨-, doc, hdoc, -⟩
    · exact hk
    · cases hdoc
  | cons doc documents ih =>
    rw [collectIdentities] at h
    rcases hcontext : doc.context with - | - | text
    · rw [hcontext] at h
      cases h
    · rw [hcontext] at h
      cases h
    · simp only [hcontext, ContextField.subscript] at h
      -- either this document has the hash, or a later one
      rcases hcache : cache.get? (hashPreamble env (preambleOf text)) with - | identity
      · simp only [hcache] at h
        refine ih h ?_
        rcases hk with hk | ⟨hnone, doc', hdoc', text', htext', rfl⟩
        · exact Or.inl hk
        · rcases List.mem_cons.mp hdoc' with rfl | hlater
          · obtain rfl : text = text' := by
              rw [hcontext] at htext'
              exact ContextField.text.inj htext'
            exact Or.inl (hnone.trans hcache.symm)
          · exact Or.inr ⟨hnone, doc', hlater, text', htext', rfl⟩
      · simp only [hcache] at h
        refine ih h ?_
        rw [Dict.get?_set]
        split_ifs with hsame
        · exact Or.inl (hsame ▸ hcache.symm)
        · rcases hk with hk | ⟨hnone, doc', hdoc', text', htext', rfl⟩
          · exact Or.inl hk
          · rcases List.mem_cons.mp hdoc' with rfl | hlater
            · rw [hcontext] at htext'
              obtain rfl := ContextField.text.inj htext'
              exact absurd rfl hsame
            · exact Or.inr ⟨hnone, doc', hlater, text', htext', rfl⟩

/-- **The identity of a document does not depend on the other ones.** -/
theorem get?_loadCachedIdentities {doc : JsonContract} {text : String}
    (h : loadCachedIdentities env cache documents = .ok identities) (hdoc : doc ∈ documents)
    (htext : doc.context = .text text) :
    identities.get? (hashPreamble env (preambleOf text)) =
      cache.get? (hashPreamble env (preambleOf text)) :=
  get?_collectIdentities h (Or.inr ⟨rfl, doc, hdoc, text, htext, rfl⟩)

end

end AuditFlow
