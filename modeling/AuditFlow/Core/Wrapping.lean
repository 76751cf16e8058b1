import AuditFlow.Core.JsonExtraction
import AuditFlow.Foundation.JsonText

/-!
# JSON in its wrapping

`extract_json` strips white space, a fence of back-ticks and a `json` tag, and then cuts from the
first `{` to the last `}`. A reply that **wraps** an object, with no `{` before it and no `}` behind
it, wraps it after every one of these steps: what is stripped is not a brace, and the four
characters of the tag stand before the object, because `{` is none of them in any letter case. So
the object is what is decoded, and every value of a reply schema comes back from each of its JSON
texts (`json_survives_wrapping`).
-/

namespace AuditFlow

open Foundation

/-! ### The steps keep the wrapping -/

/-- The text is the object, with no `{` before it and no `}` behind it. -/
def Wraps (object text : List Char) : Prop :=
  ∃ p s, text = p ++ object ++ s ∧ '{' ∉ p ∧ '}' ∉ s

section

variable {rt : Runtime} {object text : List Char}

private theorem wraps_stripBy {q : Char → Bool} (hopen : q '{' = false) (hclose : q '}' = false)
    (hhead : object.head? = some '{') (hlast : object.getLast? = some '}')
    (h : Wraps object text) : Wraps object (Text.stripBy q text) := by
  obtain ⟨p, s, rfl, hp, hs⟩ := h
  refine ⟨p.dropWhile q, s.rdropWhile q, Text.stripBy_append hhead hlast hopen hclose p s, ?_, ?_⟩
  · exact fun hmem => hp ((List.dropWhile_sublist q).subset hmem)
  · exact fun hmem => hs ((List.rdropWhile_prefix q s).subset hmem)

/-- The tag stands before the object. -/
private theorem wraps_drop_tag (hlower : rt.unicode.LowersInPlace)
    (hhead : object.head? = some '{') (h : Wraps object text)
    (htag : "json".toList.isPrefixOf (rt.unicode.lower text) = true) :
    Wraps object (text.drop 4) := by
  obtain ⟨p, s, rfl, hp, hs⟩ := h
  obtain ⟨rest, rfl⟩ := List.head?_eq_some_iff.mp hhead
  have hletters : ("json".toList.all fun c => c.toNat < 128 && '{'.toLower != c) = true := by
    decide
  simp only [List.all_eq_true, Bool.and_eq_true, decide_eq_true_eq, bne_iff_ne] at hletters
  have hascii : ∀ c ∈ "json".toList, c.toNat < 128 := fun c hc => (hletters c hc).1
  obtain ⟨-, hplaces⟩ := hlower _ _ hascii htag
  have hlength : 4 ≤ p.length := by
    by_contra hshort
    -- the brace would be lowered to a letter of the tag
    have hbrace : (p ++ '{' :: rest ++ s)[p.length]? = some '{' := by
      rw [List.append_assoc, List.getElem?_append_right le_rfl, Nat.sub_self]
      rfl
    have htagLength : p.length < "json".toList.length := by
      have hfour : "json".toList.length = 4 := by decide
      omega
    have hpair : ('{', "json".toList[p.length]) ∈ (p ++ '{' :: rest ++ s).zip "json".toList := by
      refine List.mem_iff_getElem?.mpr ⟨p.length, ?_⟩
      rw [List.getElem?_zip_eq_some]
      exact ⟨hbrace, List.getElem?_eq_getElem htagLength⟩
    have hasciiBrace : '{'.toNat < 128 := by decide
    have hletter := hplaces _ hpair hasciiBrace
    exact (hletters _ (List.getElem_mem htagLength)).2 hletter
  refine ⟨p.drop 4, s, ?_, fun hmem => hp (List.mem_of_mem_drop hmem), hs⟩
  rw [List.append_assoc, List.append_assoc, List.drop_append_of_le_length hlength]

private theorem wraps_stripFence (hlower : rt.unicode.LowersInPlace)
    (hhead : object.head? = some '{') (hlast : object.getLast? = some '}')
    (h : Wraps object text) : Wraps object (stripFence rt text) := by
  rw [stripFence]
  split_ifs with hfence
  · have hticks : Wraps object (Text.stripBy (· == '`') text) :=
      wraps_stripBy (by decide) (by decide) hhead hlast h
    dsimp only
    split_ifs with htag
    · exact wraps_stripBy (by decide) (by decide) hhead hlast
        (wraps_drop_tag hlower hhead hticks htag)
    · exact hticks
  · exact h

/-- The cut takes the object out of its wrapping. -/
private theorem cutBraces_of_wraps (hhead : object.head? = some '{')
    (hlast : object.getLast? = some '}') (h : Wraps object text) : cutBraces text = object := by
  obtain ⟨p, s, rfl, hp, hs⟩ := h
  obtain ⟨rest, hobject⟩ := List.head?_eq_some_iff.mp hhead
  obtain ⟨front, hobject'⟩ := List.getLast?_eq_some_iff.mp hlast
  have hfind : Text.find '{' (p ++ object ++ s) = some p.length := by
    rw [hobject, List.append_assoc]
    exact Text.find_append hp _
  have hrfind : Text.rfind '}' (p ++ object ++ s) = some (p ++ front).length := by
    have hsplit : p ++ object ++ s = p ++ front ++ '}' :: s := by
      rw [hobject', List.append_assoc, List.append_assoc, List.append_assoc]
      rfl
    rw [hsplit]
    exact Text.rfind_append hs _
  have hstop : (p ++ front).length + 1 = p.length + object.length := by
    rw [hobject', List.length_append, List.length_append, List.length_singleton]
    omega
  rw [cutBraces, hfind, hrfind]
  dsimp only
  rw [hstop, Text.slice_append]

/-- **What is extracted from a wrapped object** is what the object decodes to. -/
theorem extractJson_of_wraps (hlower : rt.unicode.LowersInPlace)
    (hhead : object.head? = some '{') (hlast : object.getLast? = some '}') {raw : String}
    (h : Wraps object raw.toList) : extractJson rt (some raw) = jsonLoads rt object := by
  have hstrip : Wraps object (Text.strip raw.toList) :=
    wraps_stripBy (by decide) (by decide) hhead hlast h
  rw [extractJson, cutBraces_of_wraps hhead hlast (wraps_stripFence hlower hhead hlast hstrip)]

end

/-! ### Reply schemas -/

/-- `model_dump` of a reply, as JSON. -/
def JudgeVerdict.toJson (judged : JudgeVerdict) : Json :=
  Json.object [("verdict", .str judged.verdict.value), ("reason", .str judged.reason)]

/-- A `str | None` field. -/
def optStrToJson : Option Str → Json
  | none => .null
  | some s => .str s

def Claim.toJson (claim : Claim) : Json :=
  Json.object [("text", .str claim.text),
    ("source_chunk_id", optStrToJson claim.sourceChunkId)]

def GenerationResult.toJson (result : GenerationResult) : Json :=
  Json.object [("claims", .arr (result.claims.map Claim.toJson)),
    ("raw_answer", optStrToJson result.rawAnswer)]

def ExtractedIdentity.toJson (identity : ExtractedIdentity) : Json :=
  Json.object [("company_name", .str identity.companyName),
    ("counterparty_name", .str identity.counterpartyName),
    ("contract_type", .str identity.contractType),
    ("confidence", .str identity.confidence.value)]

/-- Every value of the type can be written as an object nested at most four deep, and is validated
from it. -/
structure Schema.Encodable {α : Type} (schema : Schema α) (toJson : α → Json) : Prop where
  object : ∀ a, ∃ ms, toJson a = Json.object ms
  text : ∀ a, ∃ t, Json.Encodes 4 (.value (toJson a)) t
  validate : ∀ a, schema.validate (toJson a) = some a

private theorem exists_text_optStr (n : ℕ) (s : Option Str) :
    ∃ t, Json.Encodes (n + 1) (.value (optStrToJson s)) t := by
  cases s with
  | none => exact ⟨_, .null⟩
  | some s => exact Json.exists_text_str n s

theorem Verdict.ofValue?_value (verdict : Verdict) :
    Verdict.ofValue? verdict.value = some verdict := by
  cases verdict <;> rfl

theorem Confidence.ofValue?_value (confidence : Confidence) :
    Confidence.ofValue? confidence.value = some confidence := by
  cases confidence <;> rfl

theorem JudgeVerdict.encodable : JudgeVerdict.schema.Encodable JudgeVerdict.toJson where
  object _ := ⟨_, rfl⟩
  text judged := by
    refine Json.exists_text_obj fun m hm => ?_
    rcases List.mem_cons.mp hm with rfl | hm
    · exact Json.exists_text_str 2 _
    · obtain rfl := List.mem_singleton.mp hm
      exact Json.exists_text_str 2 _
  validate judged := by
    simp [JudgeVerdict.schema, JudgeVerdict.toJson, Json.object, Json.member, Schema.strField,
      Verdict.ofValue?_value]

private theorem Claim.exists_text (claim : Claim) :
    ∃ t, Json.Encodes 2 (.value claim.toJson) t := by
  refine Json.exists_text_obj fun m hm => ?_
  rcases List.mem_cons.mp hm with rfl | hm
  · exact Json.exists_text_str 0 _
  · obtain rfl := List.mem_singleton.mp hm
    exact exists_text_optStr 0 _

private theorem Claim.validate_toJson (claim : Claim) :
    Claim.validate claim.toJson = some claim := by
  obtain ⟨text, sourceChunkId⟩ := claim
  cases sourceChunkId <;>
    simp [Claim.validate, Claim.toJson, Json.object, Json.member, Schema.strField,
      Schema.optStrField, optStrToJson]

private theorem mapM_validate (claims : List Claim) :
    claims.mapM (Claim.validate ∘ Claim.toJson) = some claims := by
  induction claims with
  | nil => rfl
  | cons claim claims ih =>
    rw [List.mapM_cons, Function.comp_apply, Claim.validate_toJson, ih]
    rfl

theorem GenerationResult.encodable :
    GenerationResult.schema.Encodable GenerationResult.toJson where
  object _ := ⟨_, rfl⟩
  text result := by
    refine Json.exists_text_obj fun m hm => ?_
    rcases List.mem_cons.mp hm with rfl | hm
    · refine Json.exists_text_arr fun v hv => ?_
      obtain ⟨claim, -, rfl⟩ := List.mem_map.mp hv
      exact claim.exists_text
    · obtain rfl := List.mem_singleton.mp hm
      exact exists_text_optStr 2 _
  validate result := by
    obtain ⟨claims, rawAnswer⟩ := result
    cases rawAnswer <;>
      simp [GenerationResult.schema, GenerationResult.toJson, Json.object, Json.member,
        Schema.optStrField, optStrToJson, mapM_validate]

theorem ExtractedIdentity.encodable :
    ExtractedIdentity.schema.Encodable ExtractedIdentity.toJson where
  object _ := ⟨_, rfl⟩
  text identity := by
    refine Json.exists_text_obj fun m hm => ?_
    simp only [List.mem_cons, List.not_mem_nil, or_false] at hm
    rcases hm with rfl | rfl | rfl | rfl <;> exact Json.exists_text_str 2 _
  validate identity := by
    simp [ExtractedIdentity.schema, ExtractedIdentity.toJson, Json.object, Json.member,
      Schema.defaultStrField, Confidence.ofValue?_value]

/-- Every JSON text of a value gives the value back from its wrapping. -/
def SurvivesWrapping {α : Type} (rt : Runtime) (p s : String) (schema : Schema α)
    (toJson : α → Json) : Prop :=
  ∀ a, (∃ text : String, Json.Encodes 4 (.value (toJson a)) text.toList) ∧
    ∀ text : String, Json.Encodes 4 (.value (toJson a)) text.toList →
      parseLlmJson rt (some (p ++ text ++ s)) schema = .ok a

section

variable {rt : Runtime} {p s : String}

/-- An object is extracted from between a prefix and a suffix. -/
private theorem extractJson_between (hlower : rt.unicode.LowersInPlace) (hp : '{' ∉ p.toList)
    (hs : '}' ∉ s.toList) {text : String} (hhead : text.toList.head? = some '{')
    (hlast : text.toList.getLast? = some '}') :
    extractJson rt (some (p ++ text ++ s)) = jsonLoads rt text.toList := by
  refine extractJson_of_wraps hlower hhead hlast ⟨p.toList, s.toList, ?_, hp, hs⟩
  rw [String.toList_append, String.toList_append]

private theorem survivesWrapping {α : Type} {schema : Schema α} {toJson : α → Json}
    (hlower : rt.unicode.LowersInPlace) (hdepth : 4 ≤ rt.recursionLimit) (hp : '{' ∉ p.toList)
    (hs : '}' ∉ s.toList) (h : schema.Encodable toJson) :
    SurvivesWrapping rt p s schema toJson := by
  intro a
  constructor
  · obtain ⟨t, ht⟩ := h.text a
    refine ⟨String.ofList t, ?_⟩
    rwa [String.toList_ofList]
  · intro text htext
    obtain ⟨ms, hms⟩ := h.object a
    have hobject := htext
    rw [hms] at hobject
    obtain ⟨hhead, hlast⟩ := Json.braces_of_encodes hobject
    have hloads : jsonLoads rt text.toList = .ok (toJson a) := by
      rw [jsonLoads, Json.loads_of_encodes htext hdepth]
    rw [parseLlmJson, extractJson_between hlower hp hs hhead hlast, hloads]
    simp only [bind, Except.bind, h.validate a]
    rfl

/-- **JSON survives its wrapping.** Whatever stands before an object without `{` and behind it
without `}`, what is extracted is what the object decodes to, errors included; so every value of a
reply schema comes back from each of its JSON texts. -/
theorem json_survives_wrapping (hlower : rt.unicode.LowersInPlace) (hdepth : 4 ≤ rt.recursionLimit)
    (hp : '{' ∉ p.toList) (hs : '}' ∉ s.toList) :
    (∀ text : String, text.toList.head? = some '{' → text.toList.getLast? = some '}' →
        extractJson rt (some (p ++ text ++ s)) = jsonLoads rt text.toList) ∧
      SurvivesWrapping rt p s JudgeVerdict.schema JudgeVerdict.toJson ∧
      SurvivesWrapping rt p s GenerationResult.schema GenerationResult.toJson ∧
      SurvivesWrapping rt p s ExtractedIdentity.schema ExtractedIdentity.toJson :=
  ⟨fun _ hhead hlast => extractJson_between hlower hp hs hhead hlast,
    survivesWrapping hlower hdepth hp hs JudgeVerdict.encodable,
    survivesWrapping hlower hdepth hp hs GenerationResult.encodable,
    survivesWrapping hlower hdepth hp hs ExtractedIdentity.encodable⟩

end

/-- A fenced reply with prose around it, where the object has a fence and braces of its own. -/
theorem json_survives_wrapping_fenced :
    extractJson Runtime.example
        (some ("```JSON\n" ++ "\x7b\"reason\": \"``` \x7d\"\x7d" ++ " \n``` Done.")) =
      jsonLoads Runtime.example "\x7b\"reason\": \"``` \x7d\"\x7d".toList ∧
    SurvivesWrapping Runtime.example "```JSON\n" " \n``` Done." JudgeVerdict.schema
      JudgeVerdict.toJson := by
  have hlower : Runtime.example.unicode.LowersInPlace := Text.lowersInPlace_ascii
  have hdepth : 4 ≤ Runtime.example.recursionLimit := by decide
  have hp : '{' ∉ "```JSON\n".toList := by decide
  have hs : '}' ∉ " \n``` Done.".toList := by decide
  obtain ⟨hextract, hverdict, -⟩ := json_survives_wrapping hlower hdepth hp hs
  exact ⟨hextract _ (by decide) (by decide), hverdict⟩

end AuditFlow
