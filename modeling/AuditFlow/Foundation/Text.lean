import Mathlib.Data.List.DropRight
import Mathlib.Data.List.Basic

/-!
# Text as a sequence of code points

The string methods a scripting language offers, over `List Char`: stripping, splitting at white
space, searching and slicing. White space is the set that `str.isspace` and the regular
expression class `\s` share. Case mapping beyond ASCII is not here: it depends on the Unicode
database of the interpreter (`Unicode` below names what a caller may rely on).
-/

namespace Foundation.Text

/-- The code points that `str.isspace` accepts. -/
def isSpace (c : Char) : Bool :=
  (9 ≤ c.toNat && c.toNat ≤ 13) || (28 ≤ c.toNat && c.toNat ≤ 32) || c.toNat == 0x85 ||
    c.toNat == 0xa0 || c.toNat == 0x1680 || (0x2000 ≤ c.toNat && c.toNat ≤ 0x200a) ||
    c.toNat == 0x2028 || c.toNat == 0x2029 || c.toNat == 0x202f || c.toNat == 0x205f ||
    c.toNat == 0x3000

/-- Drop a leading and a trailing run of characters satisfying `p`. -/
def stripBy (p : Char → Bool) (s : List Char) : List Char := (s.dropWhile p).rdropWhile p

/-- `s.strip()`. -/
def strip (s : List Char) : List Char := stripBy isSpace s

/-- `s.split()`: the maximal runs of non-space characters. -/
def words : List Char → List (List Char)
  | [] => []
  | c :: s =>
    if isSpace c then words s
    else match s with
      | [] => [[c]]
      | d :: s' =>
        if isSpace d then [c] :: words (d :: s')
        else match words (d :: s') with
          | [] => [[c]]
          | w :: ws => (c :: w) :: ws

/-- `sub in s`. -/
def occursIn (sub s : List Char) : Bool := s.tails.any sub.isPrefixOf

/-- `s.find(c)`, absent as `none`. -/
def find (c : Char) (s : List Char) : Option ℕ := s.findIdx? (· == c)

/-- `s.rfind(c)`, absent as `none`. -/
def rfind (c : Char) (s : List Char) : Option ℕ :=
  (s.reverse.findIdx? (· == c)).map fun i => s.length - 1 - i

/-- `s[i:j]` for `0 ≤ i`, `0 ≤ j`. -/
def slice (i j : ℕ) (s : List Char) : List Char := (s.take j).drop i

/-- `s.replace(c, r)` for a single character `c`. -/
def replace (c : Char) (r : List Char) (s : List Char) : List Char :=
  s.flatMap fun d => if d = c then r else [d]

/-- `re.sub("[…]+", r, s)` for the class `p`: every run of such characters becomes `r`; `inRun` says
that a run is being skipped. -/
def replaceRunsFrom (p : Char → Bool) (r : List Char) : (inRun : Bool) → List Char → List Char
  | _, [] => []
  | inRun, c :: s =>
    if p c then (if inRun then [] else r) ++ replaceRunsFrom p r true s
    else c :: replaceRunsFrom p r false s

/-- `re.sub("[…]+", r, s)` for the class `p`. -/
def replaceRuns (p : Char → Bool) (r s : List Char) : List Char := replaceRunsFrom p r false s

/-- What is left after replacing runs was in the text outside the class, or comes from `r`. -/
theorem mem_replaceRuns {p : Char → Bool} {r s : List Char} {c : Char}
    (h : c ∈ replaceRuns p r s) : (p c = false ∧ c ∈ s) ∨ c ∈ r := by
  have hfrom : ∀ (s : List Char) (inRun : Bool), c ∈ replaceRunsFrom p r inRun s →
      (p c = false ∧ c ∈ s) ∨ c ∈ r := by
    intro s
    induction s with
    | nil => exact fun _ h => nomatch h
    | cons a s ih =>
      intro inRun h
      rw [replaceRunsFrom] at h
      split_ifs at h with ha hrun
      · exact (ih true (by simpa using h)).imp_left (And.imp_right (List.mem_cons_of_mem a))
      · rcases List.mem_append.mp h with hr | hrest
        · exact Or.inr hr
        · exact (ih true hrest).imp_left (And.imp_right (List.mem_cons_of_mem a))
      · rcases List.mem_cons.mp h with rfl | hrest
        · exact Or.inl ⟨by simpa using ha, List.mem_cons_self⟩
        · exact (ih false hrest).imp_left (And.imp_right (List.mem_cons_of_mem a))
  exact hfrom s false h

/-- What is outside the class is not replaced. -/
theorem mem_replaceRuns_of_not {p : Char → Bool} {r s : List Char} {c : Char} (hp : p c = false)
    (h : c ∈ s) : c ∈ replaceRuns p r s := by
  have hfrom : ∀ (s : List Char) (inRun : Bool), c ∈ s → c ∈ replaceRunsFrom p r inRun s := by
    intro s
    induction s with
    | nil => exact fun _ h => nomatch h
    | cons a s ih =>
      intro inRun h
      rw [replaceRunsFrom]
      split_ifs with ha hrun
      · rcases List.mem_cons.mp h with rfl | hrest
        · rw [hp] at ha
          cases ha
        · exact List.mem_append_right _ (ih true hrest)
      · rcases List.mem_cons.mp h with rfl | hrest
        · rw [hp] at ha
          cases ha
        · exact List.mem_append_right _ (ih true hrest)
      · rcases List.mem_cons.mp h with rfl | hrest
        · exact List.mem_cons_self
        · exact List.mem_cons_of_mem a (ih false hrest)
  exact hfrom s false h

/-- Stripping leaves nothing of what it takes away as a whole. -/
theorem stripBy_eq_nil_iff {p : Char → Bool} {s : List Char} :
    stripBy p s = [] ↔ ∀ c ∈ s, p c = true := by
  have hall : s.dropWhile p = [] ↔ ∀ c ∈ s, p c = true := List.dropWhile_eq_nil_iff
  rw [stripBy, List.rdropWhile_eq_nil_iff, ← hall]
  have hhead := List.head?_dropWhile_not p s
  generalize s.dropWhile p = front at hhead ⊢
  rcases front with - | ⟨c, rest⟩
  · simp
  · -- the first character that is left is outside the class
    refine iff_of_false (fun h => ?_) (List.cons_ne_nil c rest)
    have hc : p c = false := hhead
    rw [h c List.mem_cons_self] at hc
    cases hc

/-- Stripping takes characters away. -/
theorem mem_of_mem_stripBy {p : Char → Bool} {s : List Char} {c : Char} (h : c ∈ stripBy p s) :
    c ∈ s :=
  (List.dropWhile_sublist p).subset ((List.rdropWhile_prefix p _).subset h)

/-- What is left after stripping has a character outside the class. -/
theorem exists_mem_stripBy {p : Char → Bool} {s : List Char} (h : stripBy p s ≠ []) :
    ∃ c ∈ stripBy p s, p c = false := by
  have hlast : ¬p ((stripBy p s).getLast h) = true := List.rdropWhile_last_not p _ h
  exact ⟨_, List.getLast_mem h, Bool.eq_false_iff.mpr hlast⟩

/-- There is nothing to strip. -/
theorem stripBy_eq_self {p : Char → Bool} {s : List Char} (h : ∀ c ∈ s, p c = false) :
    stripBy p s = s := by
  have hfront : s.dropWhile p = s := by
    cases s with
    | nil => rfl
    | cons c s =>
      rw [List.dropWhile_cons, h c List.mem_cons_self]
      rfl
  rw [stripBy, hfront, List.rdropWhile_eq_self_iff]
  intro hne
  simp only [h _ (List.getLast_mem hne), Bool.false_eq_true, not_false_eq_true]

/-- A text without white space is one word. -/
theorem words_of_noSpace {s : List Char} (h : ∀ c ∈ s, isSpace c = false) (hne : s ≠ []) :
    words s = [s] := by
  induction s with
  | nil => exact absurd rfl hne
  | cons c s ih =>
    have hc : isSpace c = false := h c List.mem_cons_self
    cases s with
    | nil =>
      have hsingle : words [c] = if isSpace c then words [] else [[c]] := rfl
      rw [hsingle, hc]
      rfl
    | cons d s' =>
      have hd : isSpace d = false := h d (List.mem_cons_of_mem _ List.mem_cons_self)
      have hrest : words (d :: s') = [d :: s'] :=
        ih (fun c hc => h c (List.mem_cons_of_mem _ hc)) (List.cons_ne_nil _ _)
      have hjoin : words (c :: d :: s') = if isSpace c then words (d :: s')
          else if isSpace d then [c] :: words (d :: s')
          else match words (d :: s') with
            | [] => [[c]]
            | w :: ws => (c :: w) :: ws := rfl
      rw [hjoin, hc, hd, hrest]
      rfl

private theorem words_cons (c : Char) (s : List Char) :
    (isSpace c = true → words (c :: s) = words s) ∧
      (isSpace c = false → words (c :: s) ≠ []) := by
  cases s with
  | nil =>
    have hsingle : words [c] = if isSpace c then words [] else [[c]] := rfl
    rw [hsingle]
    refine ⟨fun h => if_pos h, fun h => ?_⟩
    rw [h]
    exact List.cons_ne_nil _ _
  | cons d s' =>
    have hjoin : words (c :: d :: s') = if isSpace c then words (d :: s')
        else if isSpace d then [c] :: words (d :: s')
        else match words (d :: s') with
          | [] => [[c]]
          | w :: ws => (c :: w) :: ws := rfl
    rw [hjoin]
    refine ⟨fun h => if_pos h, fun h => ?_⟩
    rw [h, if_neg Bool.false_ne_true]
    split_ifs
    · exact List.cons_ne_nil _ _
    · split
      · exact List.cons_ne_nil _ _
      · exact List.cons_ne_nil _ _

/-- A text with a character that is not white space has a word. -/
theorem words_ne_nil {s : List Char} (h : ∃ c ∈ s, isSpace c = false) : words s ≠ [] := by
  obtain ⟨c, hc, hnot⟩ := h
  induction s with
  | nil => cases hc
  | cons a s ih =>
    obtain ⟨hskip, hword⟩ := words_cons a s
    by_cases ha : isSpace a = true
    · rw [hskip ha]
      refine ih ((List.mem_cons.mp hc).resolve_left ?_)
      rintro rfl
      rw [ha] at hnot
      cases hnot
    · exact hword (Bool.eq_false_iff.mpr ha)

/-- A text that begins with a word. -/
private theorem words_eq_run {c : Char} (hc : isSpace c = false) (s : List Char) :
    words (c :: s) = (c :: s).takeWhile (fun d => !isSpace d) ::
      words ((c :: s).dropWhile fun d => !isSpace d) := by
  induction s generalizing c with
  | nil =>
    have hsingle : words [c] = if isSpace c then words [] else [[c]] := rfl
    rw [hsingle, hc, List.takeWhile_cons, List.dropWhile_cons, hc]
    rfl
  | cons d s ih =>
    have hjoin : words (c :: d :: s) = if isSpace c then words (d :: s)
        else if isSpace d then [c] :: words (d :: s)
        else match words (d :: s) with
          | [] => [[c]]
          | w :: ws => (c :: w) :: ws := rfl
    rw [hjoin, hc, List.takeWhile_cons, List.dropWhile_cons, hc]
    cases hd : isSpace d with
    | true =>
      rw [Bool.not_false, if_pos rfl, if_pos rfl, List.takeWhile_cons, List.dropWhile_cons, hd]
      rfl
    | false =>
      rw [ih hd]
      rfl

/-- The last character of an append, which is that of the first part if the second is empty. -/
private theorem forall_getLast?_append {P : Char → Prop} {l l' : List Char}
    (hl' : ∀ c, l'.getLast? = some c → P c)
    (hl : l' = [] → ∀ c, l.getLast? = some c → P c) :
    ∀ c, (l ++ l').getLast? = some c → P c := by
  intro c hc
  cases hlast : l'.getLast? with
  | none =>
    have hnil := List.getLast?_eq_none_iff.mp hlast
    rw [hnil, List.append_nil] at hc
    exact hl hnil c hc
  | some last =>
    rw [List.getLast?_append, hlast] at hc
    exact hl' c (hlast.trans hc)

/-- **Where a word stands**: between white space or the ends of the text. -/
theorem exists_of_mem_words {s word : List Char} (h : word ∈ words s) :
    (word ≠ [] ∧ ∀ c ∈ word, isSpace c = false) ∧ ∃ before after, s = before ++ word ++ after ∧
      (∀ c, before.getLast? = some c → isSpace c = true) ∧
      ∀ c, after.head? = some c → isSpace c = true := by
  induction hlength : s.length using Nat.strong_induction_on generalizing s with
  | _ n ih =>
    rcases s with - | ⟨c, s⟩
    · cases h
    · cases hc : isSpace c with
      | true =>
        rw [(words_cons c s).1 hc] at h
        obtain ⟨hword, before, after, rfl, hbefore, hafter⟩ :=
          ih s.length (by simp [← hlength]) h rfl
        refine ⟨hword, [c] ++ before, after, rfl, forall_getLast?_append hbefore ?_, hafter⟩
        intro _ d hd
        obtain rfl := Option.some.inj hd
        exact hc
      | false =>
        rw [words_eq_run hc s] at h
        set run := (c :: s).takeWhile (fun d => !isSpace d) with hrun
        set rest := (c :: s).dropWhile (fun d => !isSpace d) with hrest
        have hsplit : run ++ rest = c :: s := List.takeWhile_append_dropWhile
        have hspace : ∀ d, rest.head? = some d → isSpace d = true := by
          intro d hd
          have hnot := List.head?_dropWhile_not (fun d => !isSpace d) (c :: s)
          rw [← hrest, hd] at hnot
          simpa using hnot
        have hcons : run = c :: s.takeWhile fun d => !isSpace d := by
          rw [hrun, List.takeWhile_cons, hc]
          rfl
        rcases List.mem_cons.mp h with rfl | hlater
        · refine ⟨⟨?_, fun d hd => ?_⟩, [], rest, hsplit.symm, ?_, hspace⟩
          · rw [hcons]
            exact List.cons_ne_nil _ _
          · simpa using List.mem_takeWhile_imp hd
          · intro d hd
            cases hd
        · have hshort : rest.length < n := by
            have hsum := congrArg List.length hsplit
            rw [List.length_append, hcons, List.length_cons, hlength] at hsum
            omega
          obtain ⟨hword, before, after, heq, hbefore, hafter⟩ := ih _ hshort hlater rfl
          refine ⟨hword, run ++ before, after, ?_, forall_getLast?_append hbefore ?_, hafter⟩
          · rw [← hsplit, heq, List.append_assoc, List.append_assoc, List.append_assoc]
          · -- the run is followed by white space, so a word does not follow it directly
            rintro rfl
            obtain ⟨first, tail, rfl⟩ := List.exists_cons_of_ne_nil hword.1
            have hfirst := hspace first (by rw [heq]; rfl)
            rw [hword.2 first List.mem_cons_self] at hfirst
            cases hfirst

/-- Replacing a character by one character keeps the positions. -/
theorem replace_one (c r : Char) (s : List Char) :
    replace c [r] s = s.map fun d => if d = c then r else d := by
  induction s with
  | nil => rfl
  | cons d s ih =>
    rw [replace, List.flatMap_cons, ← replace, ih, List.map_cons]
    split_ifs <;> rfl

/-! ### The middle of a text -/

/-- The first occurrence of a character that does not stand before. -/
theorem find_append {c : Char} {p : List Char} (hp : c ∉ p) (s : List Char) :
    find c (p ++ c :: s) = some p.length := by
  rw [find, List.findIdx?_eq_some_iff_getElem]
  refine ⟨by simp, by simp, fun j hj => ?_⟩
  rw [List.getElem_append_left hj, beq_iff_eq]
  rintro rfl
  exact hp (List.getElem_mem hj)

/-- The last occurrence of a character that does not stand behind. -/
theorem rfind_append {c : Char} {s : List Char} (hs : c ∉ s) (p : List Char) :
    rfind c (p ++ c :: s) = some p.length := by
  have hreverse : (p ++ c :: s).reverse = s.reverse ++ c :: p.reverse := by simp
  have hfind := find_append (p := s.reverse) (by simpa using hs) p.reverse
  rw [find, List.length_reverse] at hfind
  rw [rfind, hreverse, hfind, Option.map_some, List.length_append, List.length_cons]
  congr 1
  omega

/-- The slice between two parts of a text. -/
theorem slice_append (p m s : List Char) :
    slice p.length (p.length + m.length) (p ++ m ++ s) = m := by
  rw [slice, ← List.length_append, List.take_left, List.drop_left]

/-- Dropping characters at the front stops at one outside the class. -/
private theorem dropWhile_append_cons {q : Char → Bool} {c : Char} (hc : q c = false)
    (p s : List Char) : (p ++ c :: s).dropWhile q = p.dropWhile q ++ c :: s := by
  induction p with
  | nil =>
    rw [List.nil_append, List.dropWhile_cons, hc]
    rfl
  | cons d p ih =>
    rw [List.cons_append, List.dropWhile_cons, List.dropWhile_cons]
    split_ifs
    · exact ih
    · rfl

/-- Stripping stops at a part that begins and ends with characters outside the class. -/
theorem stripBy_append {q : Char → Bool} {a b : Char} {m : List Char} (hhead : m.head? = some a)
    (hlast : m.getLast? = some b) (ha : q a = false) (hb : q b = false) (p s : List Char) :
    stripBy q (p ++ m ++ s) = p.dropWhile q ++ m ++ s.rdropWhile q := by
  obtain ⟨front, rfl⟩ := List.getLast?_eq_some_iff.mp hlast
  have hleft : (p ++ (front ++ [b]) ++ s).dropWhile q = p.dropWhile q ++ (front ++ [b]) ++ s := by
    obtain ⟨rest, hm⟩ := List.head?_eq_some_iff.mp hhead
    rw [hm, List.append_assoc, List.append_assoc, List.cons_append]
    exact dropWhile_append_cons ha p (rest ++ s)
  have hreverse : (p.dropWhile q ++ (front ++ [b]) ++ s).reverse =
      s.reverse ++ b :: (p.dropWhile q ++ front).reverse := by
    simp
  rw [stripBy, hleft, List.rdropWhile, hreverse, dropWhile_append_cons hb]
  simp [List.rdropWhile]

/-- `s.title()` on ASCII text; `inWord` says that the previous character was a letter. -/
def titleAscii : (inWord : Bool) → List Char → List Char
  | _, [] => []
  | inWord, c :: s =>
    if c.isAlpha then (if inWord then c.toLower else c.toUpper) :: titleAscii true s
    else c :: titleAscii false s

/-- What the string methods and the classes `\w`, `\d` read from the interpreter's Unicode
database, and what they do on ASCII text. -/
structure Unicode where
  /-- `s.lower()`. -/
  lower : List Char → List Char
  /-- `s.title()`. -/
  title : List Char → List Char
  /-- `s.isupper()`. -/
  isUpper : List Char → Bool
  /-- The class `\w`. -/
  isWord : Char → Bool
  /-- The class `\d`. -/
  isDigit : Char → Bool
  lower_ascii : ∀ s : List Char, (∀ c ∈ s, c.toNat < 128) → lower s = s.map Char.toLower
  title_ascii : ∀ s : List Char, (∀ c ∈ s, c.toNat < 128) → title s = titleAscii false s
  isUpper_ascii : ∀ s : List Char, (∀ c ∈ s, c.toNat < 128) →
    isUpper s = (s.any Char.isUpper && !s.any Char.isLower)
  isWord_ascii : ∀ c : Char, c.toNat < 128 → isWord c = (c.isAlphanum || c == '_')
  isDigit_ascii : ∀ c : Char, c.toNat < 128 → isDigit c = c.isDigit

/-- Case mapping and character classes of an interpreter that knows ASCII only. -/
def Unicode.ascii : Unicode where
  lower s := s.map Char.toLower
  title s := titleAscii false s
  isUpper s := s.any Char.isUpper && !s.any Char.isLower
  isWord c := c.isAlphanum || c == '_'
  isDigit c := c.isDigit
  lower_ascii _ _ := rfl
  title_ascii _ _ := rfl
  isUpper_ascii _ _ := rfl
  isWord_ascii _ _ := rfl
  isDigit_ascii _ _ := rfl

/-- Lower case makes no white space of anything else. -/
def Unicode.KeepsWords (u : Unicode) : Prop :=
  ∀ s : List Char, (∃ c ∈ s, isSpace c = false) → ∃ c ∈ u.lower s, isSpace c = false

private theorem isSpace_toLower {c : Char} (h : isSpace c = false) :
    isSpace c.toLower = false := by
  delta Char.toLower
  split_ifs with hupper
  · obtain ⟨hlow, hhigh⟩ := hupper
    rw [ge_iff_le, UInt32.le_iff_toNat_le] at hlow
    rw [UInt32.le_iff_toNat_le] at hhigh
    have hA : 'A'.val.toNat = 65 := rfl
    have hZ : 'Z'.val.toNat = 90 := rfl
    have hsum : (c.val + ('a'.val - 'A'.val)).toNat = c.val.toNat + 32 := by
      rw [UInt32.toNat_add]
      have hdiff : ('a'.val - 'A'.val).toNat = 32 := rfl
      omega
    have hletter : ∀ d : Char, d.toNat = c.val.toNat + 32 → isSpace d = false := by
      intro d hd
      simp only [isSpace, Bool.or_eq_false_iff, Bool.and_eq_false_iff, decide_eq_false_iff_not,
        beq_eq_false_iff_ne]
      omega
    exact hletter _ hsum
  · exact h

theorem keepsWords_ascii : Unicode.ascii.KeepsWords := by
  rintro s ⟨c, hc, hspace⟩
  exact ⟨c.toLower, List.mem_map_of_mem hc, isSpace_toLower hspace⟩

/-- Characters are lowered in their order, and the ASCII ones one by one: a text whose lowered text
begins with an ASCII word has a character for each one of the word, and an ASCII character there is
lowered to the one of the word. -/
def Unicode.LowersInPlace (u : Unicode) : Prop :=
  ∀ s w : List Char, (∀ c ∈ w, c.toNat < 128) → w.isPrefixOf (u.lower s) = true →
    w.length ≤ s.length ∧ ∀ pair ∈ s.zip w, pair.1.toNat < 128 → pair.1.toLower = pair.2

theorem lowersInPlace_ascii : Unicode.ascii.LowersInPlace := by
  intro s w _ hprefix
  obtain ⟨rest, hrest⟩ := List.isPrefixOf_iff_prefix.mp hprefix
  have hmap : s.map Char.toLower = w ++ rest := hrest.symm
  constructor
  · have hlength := congrArg List.length hmap
    rw [List.length_map, List.length_append] at hlength
    omega
  · rintro ⟨c, d⟩ hpair -
    obtain ⟨i, hi⟩ := List.mem_iff_getElem?.mp hpair
    obtain ⟨hc, hd⟩ := List.getElem?_zip_eq_some.mp hi
    have hlowered : (s.map Char.toLower)[i]? = some c.toLower := by
      rw [List.getElem?_map, hc]
      rfl
    have hword : (w ++ rest)[i]? = some d := by
      rw [List.getElem?_append_left (List.getElem?_eq_some_iff.mp hd).1]
      exact hd
    rw [hmap, hword] at hlowered
    exact (Option.some.inj hlowered).symm

/-- `re.search(rf"\b{re.escape(phrase)}\b", s)`: an occurrence of `phrase` with a word boundary
on both sides; `prev` is the character before `s`. -/
def searchWord (u : Unicode) (phrase : List Char) : (prev : Option Char) → List Char → Bool
  | prev, s =>
    let boundary (a b : Option Char) : Bool := a.any u.isWord != b.any u.isWord
    (phrase.isPrefixOf s && boundary prev s.head? &&
        boundary ((s.take phrase.length).getLast?.or prev) (s.drop phrase.length).head?) ||
      match s with
      | [] => false
      | c :: s' => searchWord u phrase (some c) s'

end Foundation.Text
