import Mathlib.Tactic.Common

/-!
# Markup and text

What is written into an element is read back as tags and text. `tokens` reads it as a browser does:
line ends are normalised first; then there are tags, in which the values between quotes may hold
anything but their quote, character references, and characters that stand for themselves, of which
NUL is dropped. `escape` is the way in which a browser writes text.

A template is a list of pieces of markup and of texts. **Text stays text** (`tokens_html`): whatever
the texts are, the tags are those of the markup, and in the place of each text there is this text,
with its line ends normalised and without NUL (`asRead`) — as long as the pieces of markup end
outside of a tag, and no line feed follows a text.

Of the named references, those are known that `escape` writes.
-/

namespace Foundation.Html

/-! ### Reading -/

inductive Token
  | char (c : Char)
  | tag (raw : List Char)
  deriving DecidableEq, Repr

/-- Where the reader is: in text, of which the rest of a reference is skipped; in a tag, whose
characters are kept in reverse; or between the quotes of a tag. -/
inductive Mode
  | data (skip : ℕ)
  | tag (raw : List Char)
  | quoted (quote : Char) (raw : List Char)

/-- The named references, behind the ampersand. -/
def references : List (List Char × Char) :=
  [(['a', 'm', 'p', ';'], '&'), (['l', 't', ';'], '<'), (['g', 't', ';'], '>'),
    (['n', 'b', 's', 'p', ';'], '\u00a0')]

/-- The reference that an ampersand begins. -/
def reference? (rest : List Char) : Option (List Char × Char) :=
  references.find? fun r => r.1.isPrefixOf rest

/-- What follows a `<` that begins a tag. -/
def opensTag : List Char → Bool
  | [] => false
  | c :: _ => c.isAlpha || c == '/' || c == '!' || c == '?'

/-- Line ends are line feeds. -/
def normalizeNewlines : List Char → List Char
  | [] => []
  | '\r' :: '\n' :: rest => '\n' :: normalizeNewlines rest
  | '\r' :: rest => '\n' :: normalizeNewlines rest
  | c :: rest => c :: normalizeNewlines rest

/-- How a character stands in a tag. -/
def inTag (c : Char) : Char := if c = '\x00' then '\ufffd' else c

/-- A tag that is not finished is dropped. -/
def tokensFrom : Mode → List Char → List Token
  | _, [] => []
  | .data 0, c :: rest =>
    if c = '<' then
      if opensTag rest then tokensFrom (.tag []) rest else .char c :: tokensFrom (.data 0) rest
    else if c = '&' then
      match reference? rest with
      | some (name, character) => .char character :: tokensFrom (.data name.length) rest
      | none => .char c :: tokensFrom (.data 0) rest
    else .char c :: tokensFrom (.data 0) rest
  | .data (n + 1), _ :: rest => tokensFrom (.data n) rest
  | .tag raw, c :: rest =>
    if c = '>' then .tag raw.reverse :: tokensFrom (.data 0) rest
    else if c = '\x22' ∨ c = '\x27' then tokensFrom (.quoted c (c :: raw)) rest
    else tokensFrom (.tag (inTag c :: raw)) rest
  | .quoted quote raw, c :: rest =>
    if c = quote then tokensFrom (.tag (c :: raw)) rest
    else tokensFrom (.quoted quote (inTag c :: raw)) rest

/-- Outside of a tag NUL is ignored. -/
def Token.isKept (token : Token) : Bool := decide (token ≠ .char '\x00')

/-- The tokens of what is written into an element. -/
def tokens (html : List Char) : List Token :=
  (tokensFrom (.data 0) (normalizeNewlines html)).filter Token.isKept

/-- The tag, if it is one. -/
def Token.tag? : Token → Option (List Char)
  | .tag raw => some raw
  | .char _ => none

/-! ### Writing text -/

/-- How a character is written. -/
def escapeChar (c : Char) : List Char :=
  if c = '&' then ['&', 'a', 'm', 'p', ';']
  else if c = '<' then ['&', 'l', 't', ';']
  else if c = '>' then ['&', 'g', 't', ';']
  else if c = '\u00a0' then ['&', 'n', 'b', 's', 'p', ';']
  else [c]

/-- How a text is written. -/
def escape (s : List Char) : List Char := s.flatMap escapeChar

/-- What is read of a text. -/
def asRead (s : List Char) : List Char := (normalizeNewlines s).filter fun c => decide (c ≠ '\x00')

private theorem normalize_cons {c : Char} (hc : c ≠ '\r') (s : List Char) :
    normalizeNewlines (c :: s) = c :: normalizeNewlines s := by
  rw [normalizeNewlines]
  · exact fun rest h => absurd h hc
  · exact fun h => absurd h hc

private theorem normalize_return {s : List Char} (hs : s.head? ≠ some '\n') :
    normalizeNewlines ('\r' :: s) = '\n' :: normalizeNewlines s := by
  rw [normalizeNewlines]
  rintro rest rfl
  exact hs rfl

/-- What stands before anything but a line feed is normalised on its own. -/
theorem normalize_append {rest : List Char} (h : rest.head? ≠ some '\n') (s : List Char) :
    normalizeNewlines (s ++ rest) = normalizeNewlines s ++ normalizeNewlines rest := by
  fun_induction normalizeNewlines s with
  | case1 => rfl
  | case2 s ih => rw [List.cons_append, List.cons_append, normalizeNewlines, ih, List.cons_append]
  | case3 s hs ih =>
    have hhead : (s ++ rest).head? ≠ some '\n' := by
      cases s with
      | nil => exact h
      | cons c s =>
        intro hc
        obtain rfl := Option.some.inj hc
        exact hs s rfl
    rw [List.cons_append, normalize_return hhead, ih, List.cons_append]
  | case4 s c _ hreturn ih =>
    rw [List.cons_append, normalize_cons hreturn, ih, List.cons_append]

/-- Without a carriage return, there is nothing to normalise. -/
theorem normalize_append_of_notMem {s : List Char} (hs : '\r' ∉ s) (rest : List Char) :
    normalizeNewlines (s ++ rest) = s ++ normalizeNewlines rest := by
  induction s with
  | nil => rfl
  | cons c s ih =>
    obtain ⟨hc, hs'⟩ := List.ne_and_not_mem_of_not_mem_cons hs
    rw [List.cons_append, normalize_cons hc.symm, ih hs', List.cons_append]

/-- What is written for a character has no line ends but the character itself. -/
private theorem normalize_escapeChar {c : Char} (hc : c ≠ '\r') (rest : List Char) :
    normalizeNewlines (escapeChar c ++ rest) = escapeChar c ++ normalizeNewlines rest := by
  refine normalize_append_of_notMem ?_ rest
  rw [escapeChar]
  split_ifs
  all_goals simp [hc.symm]

/-- **Writing a text** leaves its line ends as they are. -/
theorem normalize_escape (s : List Char) :
    normalizeNewlines (escape s) = escape (normalizeNewlines s) := by
  have hcons (c : Char) (s : List Char) : escape (c :: s) = escapeChar c ++ escape s := rfl
  have hreturn : escapeChar '\r' = ['\r'] := by decide
  have hfeed : escapeChar '\n' = ['\n'] := by decide
  fun_induction normalizeNewlines s with
  | case1 => rfl
  | case2 s ih =>
    rw [hcons, hcons, hcons, hreturn, hfeed, List.singleton_append, List.singleton_append,
      List.singleton_append, normalizeNewlines, ih]
  | case3 s hs ih =>
    have hhead : (escape s).head? ≠ some '\n' := by
      cases s with
      | nil => simp [escape]
      | cons c s =>
        have hne : c ≠ '\n' := fun hc => hs s (by rw [hc])
        rw [hcons, escapeChar]
        split_ifs
        all_goals simp [hne]
    rw [hcons, hcons, hreturn, hfeed, List.singleton_append, List.singleton_append,
      normalize_return hhead, ih]
  | case4 s c _ hc ih => rw [hcons, hcons, normalize_escapeChar hc, ih]

private theorem tokens_escapeChar (c : Char) (rest : List Char) :
    tokensFrom (.data 0) (escapeChar c ++ rest) = .char c :: tokensFrom (.data 0) rest := by
  rw [escapeChar]
  split_ifs with hamp hlt hgt hnbsp
  · subst hamp
    rfl
  · subst hlt
    rfl
  · subst hgt
    rfl
  · subst hnbsp
    rfl
  · rw [List.cons_append, List.nil_append, tokensFrom, if_neg hlt, if_neg hamp]

/-- **A text is read back**, and what follows it as if it stood alone. -/
theorem tokens_escape_append (s rest : List Char) :
    tokensFrom (.data 0) (escape s ++ rest) = s.map .char ++ tokensFrom (.data 0) rest := by
  induction s with
  | nil => rfl
  | cons c s ih =>
    rw [escape, List.flatMap_cons, List.append_assoc, tokens_escapeChar, List.map_cons,
      List.cons_append, ← ih]
    rfl

/-! ### Markup -/

/-- The markup ends in text, and has no references. -/
def closedFrom : Mode → List Char → Bool
  | .data 0, [] => true
  | _, [] => false
  | .data 0, c :: rest =>
    if c = '<' then
      !rest.isEmpty &&
        if opensTag rest then closedFrom (.tag []) rest else closedFrom (.data 0) rest
    else c != '&' && closedFrom (.data 0) rest
  | .data (_ + 1), _ :: _ => false
  | .tag raw, c :: rest =>
    if c = '>' then closedFrom (.data 0) rest
    else if c = '\x22' ∨ c = '\x27' then closedFrom (.quoted c (c :: raw)) rest
    else closedFrom (.tag (inTag c :: raw)) rest
  | .quoted quote raw, c :: rest =>
    if c = quote then closedFrom (.tag (c :: raw)) rest
    else closedFrom (.quoted quote (inTag c :: raw)) rest

/-- The markup can be followed by anything. -/
def Closed (markup : List Char) : Prop := closedFrom (.data 0) markup = true ∧ '\r' ∉ markup

instance (markup : List Char) : Decidable (Closed markup) := inferInstanceAs (Decidable (_ ∧ _))

private theorem opensTag_append {rest : List Char} (h : rest.isEmpty = false) (more : List Char) :
    opensTag (rest ++ more) = opensTag rest := by
  cases rest with
  | nil => cases h
  | cons c rest => rfl

private theorem tokensFrom_append {mode : Mode} {markup : List Char}
    (h : closedFrom mode markup = true) (rest : List Char) :
    tokensFrom mode (markup ++ rest) = tokensFrom mode markup ++ tokensFrom (.data 0) rest := by
  -- along the reader, in each of its modes
  induction markup generalizing mode with
  | nil =>
    match mode with
    | .data 0 => rfl
    | .data (n + 1) | .tag raw | .quoted quote raw => cases h
  | cons c markup ih =>
    match mode with
    | .data 0 =>
      simp only [closedFrom] at h
      simp only [List.cons_append, tokensFrom]
      split_ifs at h with hlt hopens
      · obtain ⟨hrest, hclosed⟩ := Bool.and_eq_true_iff.mp h
        rw [opensTag_append (by simpa using hrest), if_pos hlt, if_pos hopens, if_pos hlt,
          if_pos hopens, ih hclosed]
      · obtain ⟨hrest, hclosed⟩ := Bool.and_eq_true_iff.mp h
        rw [opensTag_append (by simpa using hrest), if_pos hlt, if_neg hopens, if_pos hlt,
          if_neg hopens, ih hclosed, List.cons_append]
      · obtain ⟨hamp, hclosed⟩ := Bool.and_eq_true_iff.mp h
        have hne : c ≠ '&' := by simpa using hamp
        rw [if_neg hlt, if_neg hne, if_neg hlt, if_neg hne, ih hclosed, List.cons_append]
    | .data (n + 1) => cases h
    | .tag raw =>
      simp only [closedFrom] at h
      simp only [List.cons_append, tokensFrom]
      split_ifs at h ⊢ with hend hquote
      · rw [ih h, List.cons_append]
      · exact ih h
      · exact ih h
    | .quoted quote raw =>
      simp only [closedFrom] at h
      simp only [List.cons_append, tokensFrom]
      split_ifs at h ⊢ with hend
      · exact ih h
      · exact ih h

/-! ### Templates -/

inductive Piece
  | markup (m : List Char)
  | text (s : List Char)
  deriving DecidableEq

/-- What is written for a piece. -/
def Piece.html : Piece → List Char
  | .markup m => m
  | .text s => escape s

/-- What is written for a template. -/
def html (template : List Piece) : List Char := template.flatMap Piece.html

/-- What a piece stands for: the tokens of the markup, or the text itself. -/
def Piece.tokens : Piece → List Token
  | .markup m => Html.tokens m
  | .text s => (asRead s).map .char

/-- The markup of the template is closed, and each text is followed by markup that does not begin
with a line feed. -/
inductive Fits : List Piece → Prop
  | nil : Fits []
  | markup {m : List Char} {template : List Piece} (hclosed : Closed m) (h : Fits template) :
      Fits (.markup m :: template)
  | text {s m : List Char} {template : List Piece}
      (hm : Closed m ∧ m.head?.any (fun c => c != '\n') = true) (h : Fits template) :
      Fits (.text s :: .markup m :: template)

theorem Fits.append {template template' : List Piece} (h : Fits template) (h' : Fits template') :
    Fits (template ++ template') := by
  induction h with
  | nil => exact h'
  | markup hclosed _ ih => exact .markup hclosed ih
  | text hm _ ih => exact .text hm ih

theorem Fits.flatMap {α : Type} {f : α → List Piece} (h : ∀ a, Fits (f a)) (as : List α) :
    Fits (as.flatMap f) := by
  induction as with
  | nil => exact .nil
  | cons a as ih =>
    rw [List.flatMap_cons]
    exact (h a).append ih

/-- The piece without its text. -/
def Piece.blank : Piece → Piece
  | .markup m => .markup m
  | .text _ => .text []

/-- The text of a piece. -/
def Piece.text? : Piece → Option (List Char)
  | .markup _ => none
  | .text s => some s

private theorem tokens_markup_append {m : List Char} (hm : Closed m) (rest : List Char) :
    tokens (m ++ rest) = tokens m ++ tokens rest := by
  have hself : normalizeNewlines m = m := by
    have happend := normalize_append_of_notMem hm.2 []
    rwa [List.append_nil, normalizeNewlines, List.append_nil] at happend
  rw [tokens, normalize_append_of_notMem hm.2, tokensFrom_append hm.1, List.filter_append, tokens,
    hself, tokens]

private theorem tokens_text_append {rest : List Char} (h : rest.head? ≠ some '\n')
    (s : List Char) : tokens (escape s ++ rest) = (asRead s).map .char ++ tokens rest := by
  have hkept : ∀ cs : List Char, (cs.map Token.char).filter Token.isKept =
      (cs.filter fun c => decide (c ≠ '\x00')).map .char := by
    intro cs
    rw [List.filter_map]
    congr 1
    refine List.filter_congr fun c _ => ?_
    simp [Token.isKept]
  rw [tokens, normalize_append h, normalize_escape, tokens_escape_append, List.filter_append,
    hkept, asRead, tokens]

/-- **Text stays text.** -/
theorem tokens_html {template : List Piece} (h : Fits template) :
    tokens (html template) = template.flatMap Piece.tokens := by
  have hcons (piece : Piece) (template : List Piece) :
      html (piece :: template) = piece.html ++ html template := rfl
  induction h with
  | nil => rfl
  | markup hclosed _ ih =>
    rw [hcons, Piece.html, tokens_markup_append hclosed, ih, List.flatMap_cons, Piece.tokens]
  | @text s m template hm _ ih =>
    have hhead : (m ++ html template).head? ≠ some '\n' := by
      obtain ⟨c, hc, hne⟩ := (Option.any_eq_true _ _).mp hm.2
      rw [List.head?_append, hc]
      simpa using hne
    rw [hcons, hcons, Piece.html, Piece.html, tokens_text_append hhead,
      tokens_markup_append hm.1, ih, List.flatMap_cons, List.flatMap_cons, Piece.tokens,
      Piece.tokens]

/-- **The tags do not depend on the texts.** -/
theorem tags_blank (template : List Piece) :
    (template.flatMap Piece.tokens).filterMap Token.tag? =
      ((template.map Piece.blank).flatMap Piece.tokens).filterMap Token.tag? := by
  induction template with
  | nil => rfl
  | cons piece template ih =>
    rw [List.map_cons, List.flatMap_cons, List.flatMap_cons, List.filterMap_append,
      List.filterMap_append, ih]
    cases piece with
    | markup m => rfl
    | text s =>
      have hnone : ∀ cs : List Char, (cs.map Token.char).filterMap Token.tag? = [] := by
        intro cs
        simp [List.filterMap_map, Function.comp_def, Token.tag?]
      simp only [Piece.blank, Piece.tokens, hnone]

end Foundation.Html
