import AuditFlow.Core.Chat

/-!
# Answer generation

`generation/generate.py` and `generation/generate_groq.py`: the retrieved chunks are laid out under
their ids, the model is asked for atomic claims tagged with one of those ids, and its reply is
parsed with retries. The two modules differ in the endpoint, in some rules of the prompt and in
the failure message, so both are `generateWith`. Nothing ties the ids in the reply to the ids in
the prompt.
-/

namespace AuditFlow

open Foundation

/-- `format_context`: the blocks that a claim can cite. -/
def formatContext (chunks : List ChunkMatch) : String :=
  "\n\n---\n\n".intercalate
    (chunks.map fun chunk => s!"[chunk_id: {chunk.chunkId}]\n{chunk.rawChunkText}")

/-- The rules that both prompts begin with. -/
private def promptRules : List String :=
  [
    "You are answering a question using ONLY the provided contract excerpts below.",
    "",
    "Rules:",
    "- Break your answer into separate, atomic factual claims (one fact per claim)",
    "- Each claim must be tagged with the exact chunk_id it came from",
    "- Do NOT combine information from multiple chunks into a single claim",
    "- Do NOT add any information not explicitly present in the excerpts",
    "- If the excerpts don't contain enough information to answer the question,",
    "  return exactly ONE claim where:",
    "    - \"text\" is a real sentence explaining what's missing, e.g.",
    "      \"The provided excerpts do not contain a general description of this company.\"",
    "    - \"source_chunk_id\" is null"
  ]

/-- What both prompts end with. -/
private def promptTail (context question : String) : List String :=
  [
    "Excerpts:",
    context,
    "",
    "Question: " ++ question,
    "",
    "Respond with ONLY valid JSON in this exact format, no other text, no markdown fences:",
    "\x7b",
    "  \"claims\": [",
    "    \x7b\"text\": \"...\", \"source_chunk_id\": \"...\"\x7d",
    "  ]",
    "\x7d"
  ]

/-- `GENERATION_PROMPT.format(context=…, question=…)`. -/
def generationPrompt (context question : String) : String :=
  "\n".intercalate (promptRules ++ [
    "- If a clause defines a term by referring to another part of the document ",
    "  (e.g. \"the date first written above\", \"as set forth in Section X\"), ",
    "  do NOT use that cross-reference as your answer. Instead, look for the ",
    "  actual concrete value (the real date, name, or number) elsewhere in ",
    "  the provided excerpts, and cite THAT chunk instead.",
    "- Only return a cross-reference phrase as your answer if no concrete ",
    "  value is available anywhere in the provided excerpts.",
    "NEVER set \"text\" to null. \"text\" must always be a real, non-empty string.",
    "",
    ""
  ] ++ promptTail context question)

/-- The prompt of the hosted model, without the rules on cross-references. -/
def generationPromptGroq (context question : String) : String :=
  "\n".intercalate (promptRules ++ [
    "  NEVER set \"text\" to null. \"text\" must always be a real, non-empty string.",
    ""
  ] ++ promptTail context question)

/-- The common body of the two generators. -/
def generateWith (rt : Runtime) (promptFor : String → String → String) (failure : String)
    (client : ChatClient) (question : String) (chunks : List ChunkMatch) (maxRetries : ℤ) :
    Except PyError GenerationResult :=
  match chatLoop rt GenerationResult.schema client (promptFor (formatContext chunks) question)
      maxRetries with
  | .done result => .ok result
  | .abort e => .error e
  | .exhausted lastError =>
    .error { cls := .generationError,
             message := s!"{failure} after {maxRetries + 1} attempts",
             detail := [("question", question), ("last_error", lastErrorText lastError)] }

/-- `generate_answer`. -/
def generateAnswer (rt : Runtime) (client : ChatClient) (question : String)
    (chunks : List ChunkMatch) (maxRetries : ℤ := 2) : Except PyError GenerationResult :=
  generateWith rt generationPrompt "Generation failed" client question chunks maxRetries

/-- `generate_answer_groq`. -/
def generateAnswerGroq (rt : Runtime) (client : ChatClient) (question : String)
    (chunks : List ChunkMatch) (maxRetries : ℤ := 2) : Except PyError GenerationResult :=
  generateWith rt generationPromptGroq "Groq generation failed" client question chunks maxRetries

/-! ### What the generators do -/

section

variable {rt : Runtime} {promptFor : String → String → String} {failure : String}
  {client : ChatClient} {question : String} {chunks : List ChunkMatch} {maxRetries : ℤ}

/-- A generator returns the first reply that is not retried, if it is accepted. -/
theorem generateWith_eq_ok_iff {result : GenerationResult} :
    generateWith rt promptFor failure client question chunks maxRetries = .ok result ↔
      FirstAccepted rt GenerationResult.schema client (promptFor (formatContext chunks) question)
        (maxRetries + 1).toNat result := by
  rw [← chatLoop_eq_done_iff, generateWith]
  split
  · rename_i hloop
    rw [hloop, Except.ok.injEq, Retried.done.injEq]
  · rename_i hloop
    simp [hloop]
  · rename_i hloop
    simp [hloop]

/-- **Running out of attempts is labelled**; every other exception of a generator is raised by the
first reply that is not retried. -/
theorem generateWith_eq_error_iff {e : PyError} (he : e.Unlabelled) :
    generateWith rt promptFor failure client question chunks maxRetries = .error e ↔
      FirstBroken rt GenerationResult.schema client (promptFor (formatContext chunks) question)
        (maxRetries + 1).toNat e := by
  rw [← chatLoop_eq_abort_iff, generateWith]
  split
  · rename_i hloop
    simp [hloop]
  · rename_i hloop
    rw [hloop, Except.error.injEq, Retried.abort.injEq]
  · rename_i hloop
    simp only [hloop, Except.error.injEq, reduceCtorEq, iff_false]
    rintro rfl
    cases he

end

end AuditFlow
