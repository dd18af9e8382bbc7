import Mathlib.Data.List.TakeWhile
import Mathlib.Tactic.Lemma
import SourceCheck.Token.Stream

/-!
# Where tokens end

A token is read again when the text is cut off behind it and nothing or a space follows. What is next to it decides
where a token ends, so this is shown reader by reader.
-/

namespace SourceCheck

open List StringBody

variable {rest cs tail : List Char} {c first : Char} {n : Nat}

/-! ### Text before a space -/

def Spaced (rest : List Char) : Prop :=
  ∀ c ∈ rest.head?, c = ' '

lemma spaced_nil : Spaced [] := by
  simp [Spaced]

lemma spaced_cons (rest) : Spaced (' ' :: rest) := by
  simp [Spaced]

lemma Spaced.head?_append (h : Spaced rest) (cs : List Char) (n) :
    ∀ c ∈ (cs.take n ++ rest).head?, c = ' ' ∨ c ∈ cs.head? := by
  intro c hc
  cases cs with
  | nil =>
    rw [take_nil, nil_append] at hc
    exact .inl (h c hc)
  | cons d cs =>
    cases n with
    | zero => exact .inl (h c hc)
    | succ n => exact .inr hc

lemma run_cons_of_pos {p} (h : p c = true) (cs) : run p (c :: cs) = run p cs + 1 := by
  simp [run, h]

lemma run_cons_of_neg {p} (h : p c = false) (cs) : run p (c :: cs) = 0 := by
  simp [run, h]

lemma run_append {p as} (h : ∀ c ∈ as, p c = true) (hrest : ∀ d ∈ rest.head?, p d = false) :
    run p (as ++ rest) = as.length := by
  have hstop : rest.takeWhile p = [] := by
    cases rest with
    | nil => rfl
    | cons d rest => simp [hrest d rfl]
  rw [run, takeWhile_append_of_pos h, hstop, append_nil]

/-- A text is cut behind the characters at its front for which `p` holds. -/
lemma exists_run (p : Char → Bool) (cs) :
    ∃ as bs : List Char, cs = as ++ bs ∧ (∀ c ∈ as, p c = true) ∧ ∀ d ∈ bs.head?, p d = false := by
  refine ⟨_, _, (takeWhile_append_dropWhile (p := p)).symm, fun c => mem_takeWhile_imp, fun d hd => ?_⟩
  have hstop := List.head?_dropWhile_not p cs
  rwa [Option.mem_def.1 hd] at hstop

lemma Spaced.neg (h : Spaced rest) {p : Char → Bool} (hp : p ' ' = false) : ∀ d ∈ rest.head?, p d = false :=
  fun d hd => h d hd ▸ hp

namespace Piece

/-- A piece that is the token `k`, with which nothing is wrong. -/
structure IsToken (p : Piece) (k : TokenKind) : Prop where
  kind : p.kind = some k
  badEscapes : p.badEscapes = []
  problem : p.problem = none

variable {k : TokenKind} {cs : List Char}

lemma not_isToken_bad (problem extent) : ¬ (bad problem extent).IsToken k :=
  fun h => by cases h.problem

/-- A reader behind `opening` characters reads the same piece when the text is cut off behind it. -/
def Closed (opening : Nat) (read : List Char → Piece) (cs : List Char) : Prop :=
  ∃ n ≤ cs.length, (read cs).extent = opening + n ∧ ∀ rest, Spaced rest → read (cs.take n ++ rest) = read cs

lemma Closed.cons {opening read} (h : Closed (opening + 1) read cs)
    {read'} (hread : ∀ ds, read' (c :: ds) = read ds) : Closed opening read' (c :: cs) := by
  obtain ⟨n, hn, hextent, hrest⟩ := h
  refine ⟨n + 1, by simpa using hn, ?_, fun rest hspaced => ?_⟩
  · rw [hread, hextent]
    omega
  · rw [take_succ_cons, cons_append, hread, hread, hrest rest hspaced]

lemma closed_append {opening read as bs} (hextent : (read (as ++ bs)).extent = opening + as.length)
    (h : ∀ rest, Spaced rest → read (as ++ rest) = read (as ++ bs)) : Closed opening read (as ++ bs) :=
  ⟨as.length, by simp, hextent, by simpa using h⟩

lemma closed_const (p cs) : Closed p.extent (fun _ => p) cs :=
  ⟨0, Nat.zero_le _, rfl, fun _ _ => rfl⟩

lemma closed_single {read p} (hextent : p.extent = 0) (hcs : read cs = p)
    (hend : read [] = p) (hspace : ∀ ds, read (' ' :: ds) = p) : Closed 0 read cs := by
  refine ⟨0, Nat.zero_le _, by rw [hcs, hextent], fun rest hrest => ?_⟩
  rw [take_zero, nil_append, hcs]
  cases rest with
  | nil => exact hend
  | cons c r => rw [hrest c rfl, hspace]

/-! ### Words and numbers -/

lemma extent_word (first cs) : (word first cs).extent = run isWordChar cs := by
  unfold word
  dsimp only
  split <;> rfl

lemma closed_word (first cs) : Closed 0 (word first) cs := by
  obtain ⟨as, bs, rfl, has, hbs⟩ := exists_run isWordChar cs
  have hrun := run_append has hbs
  refine closed_append (by rw [extent_word, hrun, Nat.zero_add]) fun rest hrest => ?_
  simp only [word, hrun, run_append has (hrest.neg (by decide)), take_left]

lemma closed_prefixedInt {base text}
    (h : (prefixedInt base text cs).IsToken k) : Closed 1 (prefixedInt base text) cs := by
  obtain ⟨as, bs, rfl, has, hbs⟩ := exists_run isWordChar cs
  have hvalid : as.isEmpty = false ∧ as.all (isDigitOf base.radix) = true ∧
    digitsValue base.radix as < intLimit := by
    simp only [prefixedInt, run_append has hbs, take_left] at h
    split at h
    · exact absurd h (not_isToken_bad _ _)
    · split at h
      · exact absurd h (not_isToken_bad _ _)
      · split at h
        · simp_all
        · exact absurd h (not_isToken_bad _ _)
  obtain ⟨hempty, hdigits, hvalue⟩ := hvalid
  have hread {rest : List Char} (hrest : ∀ d ∈ rest.head?, isWordChar d = false) :
      prefixedInt base text (as ++ rest) = token (.int (digitsValue base.radix as) base) (1 + as.length) := by
    simp [prefixedInt, run_append has hrest, hempty, hdigits, hvalue]
  refine closed_append (by rw [hread hbs]; rfl) fun rest hrest => ?_
  rw [hread hbs, hread (hrest.neg (by decide))]

lemma endNumber_of_isToken {kind extent piece}
    (h : (endNumber kind first cs extent piece).IsToken k) : endNumber kind first cs extent piece = piece := by
  unfold endNumber at h ⊢
  split at h
  · split at h
    · exact absurd h (not_isToken_bad _ _)
    · simp_all
  · simp_all

lemma endNumber_append (hrest : ∀ d ∈ rest.head?, isWordChar d = false) (kind first as piece) :
    endNumber kind first (as ++ rest) as.length piece = piece := by
  rw [endNumber, drop_left]
  cases rest with
  | nil => rfl
  | cons d rest => simp [hrest d rfl]

lemma isDigit_eq_false_of_isWordStart (h : isWordStart c = true) : c.isDigit = false := by
  have halpha : c.isAlpha = (decide (c.val ≥ 65 ∧ c.val ≤ 90) || c.val ≥ 97 && c.val ≤ 122) := rfl
  simp only [isWordStart, halpha, Char.isDigit, Bool.or_eq_true, decide_eq_true_eq, Bool.and_eq_true] at h ⊢
  obtain h | rfl := h
  · simp only [Bool.and_eq_false_iff, decide_eq_false_iff_not, ge_iff_le, UInt32.le_iff_toNat_le] at h ⊢
    simp at h ⊢
    omega
  · decide

/-- A text starts with a point that belongs to the number before it. -/
def startsFraction : List Char → Bool
  | '.' :: c :: _ => c ≠ '.' && !isWordStart c
  | ['.'] => true
  | _ => false

/-- The integer that these digits are. -/
def wholeNumber (digits : List Char) (extent : Nat) : Piece :=
  let value := digitsValue 10 digits
  if value < intLimit then token (.int value .decimal) extent
  else bad (.numberTooLarge "integer" (String.ofList digits)) extent

lemma extent_wholeNumber (digits extent) : (wholeNumber digits extent).extent = extent := by
  unfold wholeNumber
  dsimp only
  split <;> rfl

lemma startsFraction_cons_eq_true (h : startsFraction (c :: tail) = true) :
    c = '.' ∧ ∀ d ∈ tail.head?, d ≠ '.' ∧ isWordStart d = false := by
  unfold startsFraction at h
  split at h
  · rename_i heq
    cases heq
    simpa using h
  · rename_i heq
    cases heq
    simp
  · cases h

section

variable {as bs : List Char} (has : ∀ c ∈ as, c.isDigit = true)

include has

lemma decimal_of_not_startsFraction (first) (hrest : ∀ d ∈ rest.head?, d.isDigit = false)
    (h : startsFraction rest = false) :
    decimal first (as ++ rest) =
      endNumber "integer" first (as ++ rest) as.length (wholeNumber (first :: as) as.length) := by
  simp only [decimal, run_append has hrest, drop_left, take_left]
  split
  · split
    · rename_i d ds
      simp only [startsFraction, Bool.and_eq_false_iff, decide_eq_false_iff_not, ne_eq, not_not,
        Bool.not_eq_false'] at h
      have hdigit : d.isDigit = false := by
        obtain rfl | hd := h
        · decide
        · exact isDigit_eq_false_of_isWordStart hd
      rw [if_neg (by simp [hdigit]), if_pos (by simpa using h)]
      rfl
    · simp [startsFraction] at h
  · rfl

lemma decimal_of_startsFraction (first) (hbs : ∀ c ∈ bs, c.isDigit = true)
    (hrest : ∀ d ∈ rest.head?, d.isDigit = false)
    (h : startsFraction ('.' :: (bs ++ rest)) = true) :
    decimal first (as ++ '.' :: (bs ++ rest)) =
      endNumber "float" first (as ++ '.' :: (bs ++ rest)) (as.length + 1 + bs.length)
        (token (floatOf (first :: as) bs) (as.length + 1 + bs.length)) := by
  have hpoint : ∀ d ∈ ('.' :: (bs ++ rest)).head?, d.isDigit = false := by simp
  have hrun := run_append hbs hrest
  simp only [decimal, run_append has hpoint, drop_left, take_left]
  cases htail : bs ++ rest with
  | nil =>
    obtain ⟨rfl, rfl⟩ := append_eq_nil_iff.1 htail
    simp [endNumber]
  | cons d ds =>
    rw [htail] at h hrun
    obtain ⟨-, hd⟩ := startsFraction_cons_eq_true h
    obtain ⟨hdot, hword⟩ := hd d rfl
    cases hdigit : d.isDigit with
    | true =>
      have htake : (d :: ds).take bs.length = bs := by rw [← htail, take_left]
      simp only [hdigit, hrun, htake, ↓reduceIte]
    | false =>
      obtain rfl : bs = [] := length_eq_zero_iff.1 (hrun.symm.trans (run_cons_of_neg hdigit ds))
      simp [hdigit, hdot, hword]

end

lemma closed_decimal (h : (decimal first cs).IsToken k) : Closed 0 (decimal first) cs := by
  have hspace : Char.isDigit ' ' = false := by decide
  obtain ⟨as, bs, rfl, has, hbs⟩ := exists_run Char.isDigit cs
  cases hpoint : startsFraction bs with
  | false =>
    have heq := decimal_of_not_startsFraction has first hbs hpoint
    rw [heq] at h
    rw [endNumber_of_isToken h] at heq
    refine closed_append (by rw [heq, extent_wholeNumber, Nat.zero_add]) fun rest hrest => ?_
    have hrest' : startsFraction rest = false := by
      cases rest with
      | nil => rfl
      | cons c r => rw [hrest c rfl]; rfl
    rw [heq, decimal_of_not_startsFraction has first (hrest.neg hspace) hrest',
      endNumber_append (hrest.neg (by decide))]
  | true =>
    cases bs with
    | nil => cases hpoint
    | cons c tail =>
      obtain ⟨rfl, hhead⟩ := startsFraction_cons_eq_true hpoint
      obtain ⟨ds, rest, rfl, hds, hrest⟩ := exists_run Char.isDigit tail
      have hread := decimal_of_startsFraction has first hds hrest hpoint
      rw [hread] at h
      rw [endNumber_of_isToken h] at hread
      have hsplit (rest : List Char) : as ++ '.' :: (ds ++ rest) = (as ++ '.' :: ds) ++ rest := by simp
      have hlength : as.length + 1 + ds.length = (as ++ '.' :: ds).length := by simp; omega
      rw [hsplit, hlength] at hread
      rw [hsplit]
      refine closed_append (by rw [hread, Nat.zero_add]; rfl) fun after hafter => ?_
      have hpoint' : startsFraction ('.' :: (ds ++ after)) = true := by
        cases ds with
        | nil =>
          cases after with
          | nil => rfl
          | cons c _ => rw [hafter c rfl]; rfl
        | cons d _ => simpa [startsFraction] using hhead d rfl
      rw [hread, ← hsplit, decimal_of_startsFraction has first hds (hafter.neg hspace) hpoint', hlength, hsplit,
        endNumber_append (hafter.neg (by decide))]

lemma fraction_of_isToken (h : (fraction cs).IsToken k) :
    fraction cs = token (floatOf [] (cs.take (run Char.isDigit cs))) (run Char.isDigit cs) :=
  endNumber_of_isToken h

lemma closed_fraction (h : (fraction cs).IsToken k) : Closed 0 fraction cs := by
  have heq := fraction_of_isToken h
  obtain ⟨as, bs, rfl, has, hbs⟩ := exists_run Char.isDigit cs
  have hrun := run_append has hbs
  refine closed_append (by rw [heq, hrun, Nat.zero_add]; rfl) fun rest hrest => ?_
  rw [heq]
  simp only [fraction, hrun, run_append has (hrest.neg (by decide)), take_left,
    endNumber_append (hrest.neg (p := isWordChar) (by decide))]

/-- A number that starts with a zero has a base mark after it. -/
def startsBase (first : Char) (cs : List Char) : Bool :=
  first = '0' && cs.head?.any (['x', 'X', 'b', 'B', 'o'].contains ·)

attribute [local simp] startsBase

lemma number_of_not_startsBase (h : startsBase first cs = false) : number first cs = decimal first cs := by
  unfold number
  split
  · simp at h
  · simp at h
  · simp at h
  · simp at h
  · simp at h
  · rfl

lemma startsBase_take_append (h : startsBase first cs = false) (n)
    (hrest : Spaced rest) : startsBase first (cs.take n ++ rest) = false := by
  cases htext : cs.take n ++ rest with
  | nil => simp
  | cons d ds =>
    obtain rfl | hd := hrest.head?_append cs n d (by rw [htext]; rfl)
    · simp
    · simpa [Option.mem_def.1 hd] using h

lemma closed_number (h : (number first cs).IsToken k) : Closed 0 (number first) cs := by
  cases hbase : startsBase first cs with
  | false =>
    rw [number_of_not_startsBase hbase] at h
    obtain ⟨n, hn, hextent, hread⟩ := closed_decimal h
    refine ⟨n, hn, by rw [number_of_not_startsBase hbase, hextent], fun rest hrest => ?_⟩
    have hbase' := startsBase_take_append hbase n hrest
    rw [number_of_not_startsBase hbase, number_of_not_startsBase hbase', hread rest hrest]
  | true =>
    simp only [startsBase, Bool.and_eq_true, decide_eq_true_eq] at hbase
    obtain ⟨rfl, hmark⟩ := hbase
    cases cs with
    | nil => cases hmark
    | cons c cs =>
      simp only [List.head?_cons, Option.any_some, contains_eq_mem, mem_cons, not_mem_nil,
        or_false, decide_eq_true_eq] at hmark
      obtain rfl | rfl | rfl | rfl | rfl := hmark <;> exact (closed_prefixedInt h).cons fun _ => rfl

end Piece

/-! ### Strings and characters -/

lemma ne_backslash (hlast : c = '\\' → cs = [] → False)
    (hescape : ∀ d ds, c = '\\' → cs = d :: ds → False) : c ≠ '\\' := by
  rintro rfl
  cases cs with
  | nil => exact hlast rfl rfl
  | cons d ds => exact hescape d ds rfl rfl

namespace StringBody

lemma closed_pushEscape (position c body) :
    (pushEscape position c body).closed = body.closed ∧ (pushEscape position c body).size = body.size + 2 := by
  unfold pushEscape
  split <;> exact ⟨rfl, rfl⟩

lemma ofLine_take_append {position} (h : (ofLine position cs).closed = true) (rest) :
    1 ≤ (ofLine position cs).size ∧ (ofLine position cs).size ≤ cs.length ∧
      ofLine position (cs.take (ofLine position cs).size ++ rest) = ofLine position cs := by
  fun_induction ofLine position cs with
  | case1 | case2 => cases h
  | case3 => simp [finish, ofLine]
  | case4 => cases h
  | case5 position c cs ih =>
    rw [(closed_pushEscape _ _ _).1] at h
    obtain ⟨hpos, hsize, hread⟩ := ih h
    rw [(closed_pushEscape _ _ _).2]
    refine ⟨by omega, by simpa using hsize, ?_⟩
    simp only [take_succ_cons, cons_append, ofLine, hread]
  | case6 position c cs hline hquote hlast hescape ih =>
    have hplain := ne_backslash hlast hescape
    obtain ⟨hpos, hsize, hread⟩ := ih h
    refine ⟨by simp [push], by simpa [push] using hsize, ?_⟩
    simp only [push, take_succ_cons, cons_append]
    rw [ofLine, hread]
    · rfl
    · exact hline
    · exact hquote
    · exact fun hc => absurd hc hplain
    · exact fun _ _ hc => absurd hc hplain

lemma eq_cons_cons_of_take_append {a b} (hn : 2 ≤ n)
    (hle : n ≤ cs.length) (h : cs.take n ++ rest = a :: b :: tail) : ∃ ds, cs = a :: b :: ds := by
  match cs, n with
  | [], _ | [_], _ => simp at hle; omega
  | c :: d :: ds, n + 2 =>
    simp only [take_succ_cons, cons_append, List.cons.injEq] at h
    exact ⟨ds, by rw [h.1, h.2.1]⟩

lemma ofBlock_take_append {position} (h : (ofBlock position cs).closed = true) (rest) :
    3 ≤ (ofBlock position cs).size ∧ (ofBlock position cs).size ≤ cs.length ∧
      ofBlock position (cs.take (ofBlock position cs).size ++ rest) = ofBlock position cs := by
  fun_induction ofBlock position cs with
  | case1 => cases h
  | case2 => simp [finish, ofBlock]
  | case3 => cases h
  | case4 position c cs ih =>
    rw [(closed_pushEscape _ _ _).1] at h
    obtain ⟨hpos, hsize, hread⟩ := ih h
    rw [(closed_pushEscape _ _ _).2]
    refine ⟨by omega, by simpa using hsize, ?_⟩
    simp only [take_succ_cons, cons_append, ofBlock, hread]
  | case5 position c cs hquotes hlast hescape ih =>
    have hplain := ne_backslash hlast hescape
    obtain ⟨hpos, hsize, hread⟩ := ih h
    refine ⟨by simp only [push]; omega, by simpa [push] using hsize, ?_⟩
    simp only [push, take_succ_cons, cons_append]
    rw [ofBlock, hread]
    · rfl
    · intro tail hc htail
      obtain ⟨ds, hds⟩ := eq_cons_cons_of_take_append (by omega) hsize htail
      exact hquotes ds hc hds
    · exact fun hc => absurd hc hplain
    · exact fun _ _ hc => absurd hc hplain

lemma ofRaw_take_append (h : (ofRaw cs).closed = true) (rest) :
    3 ≤ (ofRaw cs).size ∧ (ofRaw cs).size ≤ cs.length ∧ ofRaw (cs.take (ofRaw cs).size ++ rest) = ofRaw cs := by
  fun_induction ofRaw cs with
  | case1 => cases h
  | case2 => simp [finish, ofRaw]
  | case3 c cs hquotes ih =>
    obtain ⟨hpos, hsize, hread⟩ := ih h
    refine ⟨by simp only [push]; omega, by simpa [push] using hsize, ?_⟩
    simp only [push, take_succ_cons, cons_append]
    rw [ofRaw, hread]
    · rfl
    · intro tail hc htail
      obtain ⟨ds, hds⟩ := eq_cons_cons_of_take_append (by omega) hsize htail
      exact hquotes ds hc hds

lemma closed_of_isToken {body : StringBody} {form opening k}
    (h : (body.piece form opening).IsToken k) : body.closed = true := by
  have hkind := h.kind
  unfold piece at hkind
  cases hclosed : body.closed with
  | true => rfl
  | false => simp [hclosed] at hkind

end StringBody

namespace Piece

variable {k : TokenKind} {cs : List Char}

lemma closed_rawString (h : (rawString cs).IsToken k) : Closed 3 rawString cs := by
  have hclosed := closed_of_isToken h
  have hread := ofRaw_take_append hclosed
  refine ⟨(ofRaw cs).size, (hread []).2.1, rfl, fun rest _ => ?_⟩
  rw [rawString, rawString, (hread rest).2.2]

lemma string_of_ne (h : ∀ ds, cs ≠ '"' :: '"' :: ds) :
    string cs = (ofLine 1 cs).piece .regular 0 := by
  unfold string
  split
  · exact absurd rfl (h _)
  · rfl

lemma closed_string (h : (string cs).IsToken k) : Closed 0 string cs := by
  by_cases hblock : ∃ ds, cs = '"' :: '"' :: ds
  · obtain ⟨ds, rfl⟩ := hblock
    have hread := ofBlock_take_append (closed_of_isToken h)
    have hbody : Closed 2 (fun ds => (ofBlock 3 ds).piece .processed 2) ds := by
      refine ⟨(ofBlock 3 ds).size, (hread []).2.1, rfl, fun rest _ => ?_⟩
      dsimp only
      rw [(hread rest).2.2]
    have hsecond : Closed 1 (fun ds => string ('"' :: ds)) ('"' :: ds) := hbody.cons fun _ => rfl
    exact hsecond.cons fun _ => rfl
  · rw [not_exists] at hblock
    have hline := string_of_ne hblock
    rw [hline] at h
    have hread := ofLine_take_append (closed_of_isToken h)
    have hpos := (hread []).1
    refine ⟨(ofLine 1 cs).size, (hread []).2.1, by rw [hline]; rfl, fun rest hrest => ?_⟩
    rw [hline, string_of_ne, (hread rest).2.2]
    intro ds htext
    -- The closing quote may be the first of the two quotes, but then a space follows.
    obtain hone | htwo := Nat.lt_or_eq_of_le hpos
    · obtain ⟨es, hcs⟩ := eq_cons_cons_of_take_append hone (hread []).2.1 htext
      exact hblock es hcs
    · rw [← htwo] at htext
      cases cs with
      | nil => simp [ofLine, finish] at hpos
      | cons c cs =>
        simp only [take_succ_cons, take_zero, cons_append, nil_append, List.cons.injEq] at htext
        have hquote := hrest '"' (by rw [htext.2]; rfl)
        exact absurd hquote (by decide)

lemma closed_endChar {value bad size}
    (h : (endChar value bad size cs).IsToken k) : Closed size (endChar value bad size) cs := by
  unfold endChar at h
  split at h
  · exact ⟨1, by simp, rfl, fun _ _ => rfl⟩
  · cases h.problem

lemma char_of_ne (hline : c ≠ '\n') (hquote : c ≠ '\'') (hescape : c ≠ '\\')
    (ds) : char (c :: ds) = endChar (some c) [] 1 ds := by
  rw [char]
  · exact hline
  · exact hquote
  · exact fun h => absurd h hescape
  · exact fun _ _ h => absurd h hescape

lemma closed_char (h : (char cs).IsToken k) : Closed 0 char cs := by
  unfold char at h
  split at h
  · exact absurd h (not_isToken_bad _ _)
  · exact absurd h (not_isToken_bad _ _)
  · exact absurd h (not_isToken_bad _ _)
  · exact absurd h (not_isToken_bad _ _)
  · rename_i c cs
    split at h
    · rename_i v hv
      have hread (ds : List Char) : char ('\\' :: c :: ds) = endChar (some v) [] 2 ds := by
        simp only [char, hv]
      have hescape : Closed 1 (fun ds => char ('\\' :: ds)) (c :: cs) := (closed_endChar h).cons hread
      exact hescape.cons fun _ => rfl
    · unfold endChar at h
      split at h
      · cases h.kind
      · cases h.problem
  · rename_i c cs hline hquote hlast hescape
    have hplain := ne_backslash hlast hescape
    exact (closed_endChar h).cons (char_of_ne hline hquote hplain)

/-! ### Any token -/

lemma scan_of_isDigit (h : c.isDigit = true) (afterOperand cs) : scan afterOperand c cs = number c cs := by
  unfold scan
  split
  all_goals first
    | exact absurd h (by decide)
    | skip
  rw [if_pos h]

lemma scan_of_isWordStart (h : isWordStart c = true) (afterOperand)
    (hraw : ∀ ds, c = 'r' → cs ≠ '"' :: '"' :: '"' :: ds) : scan afterOperand c cs = word c cs := by
  unfold scan
  split
  all_goals first
    | exact absurd h (by decide)
    | skip
  · exact absurd rfl (hraw _ rfl)
  · rw [if_neg (by simp [isDigit_eq_false_of_isWordStart h]), if_pos h]

lemma closed_scan_word (h : isWordStart c = true) (afterOperand)
    (hraw : ∀ ds, c = 'r' → cs ≠ '"' :: '"' :: '"' :: ds) : Closed 0 (scan afterOperand c) cs := by
  obtain ⟨n, hn, hextent, hread⟩ := closed_word c cs
  have hscan := scan_of_isWordStart h afterOperand hraw
  refine ⟨n, hn, by rw [hscan, hextent], fun rest hrest => ?_⟩
  rw [hscan, scan_of_isWordStart h, hread rest hrest]
  intro ds _ htext
  rw [extent_word, Nat.zero_add] at hextent
  -- A quote in front stands behind the word, and there is a space.
  have hfront : (cs.take n ++ rest).head? = some '"' := by rw [htext]; rfl
  obtain hspace | hquote := hrest.head?_append cs n '"' hfront
  · exact absurd hspace (by decide)
  · obtain ⟨es, rfl⟩ := List.head?_eq_some_iff.1 hquote
    obtain rfl : n = 0 := hextent.symm.trans (run_cons_of_neg (by decide) es)
    exact absurd (hrest '"' hfront) (by decide)

lemma not_isToken_blockComment : ¬ (blockComment cs).IsToken k := by
  intro h
  unfold blockComment at h
  split at h
  · cases h.kind
  · cases h.problem

lemma scan_point_of_spaced (afterOperand) (hrest : Spaced rest) : scan afterOperand '.' rest = mark .dot := by
  cases rest with
  | nil => rfl
  | cons c r =>
    obtain rfl := hrest c rfl
    rfl

lemma scan_point_of_isDigit {d} (h : d.isDigit = true) (ds) : scan false '.' (d :: ds) = fraction (d :: ds) := by
  simp [scan, h]

lemma closed_scan_point {afterOperand} (h : (scan afterOperand '.' cs).IsToken k) :
    Closed 0 (scan afterOperand '.') cs := by
  by_cases hfraction : afterOperand = false ∧ ∃ d ds, cs = d :: ds ∧ d.isDigit = true
  · obtain ⟨rfl, d, ds, rfl, hd⟩ := hfraction
    rw [scan_point_of_isDigit hd] at h
    obtain ⟨n, hn, hextent, hread⟩ := closed_fraction h
    refine ⟨n, hn, by rw [scan_point_of_isDigit hd, hextent], fun rest hrest => ?_⟩
    -- The first digit belongs to the number.
    obtain ⟨m, rfl⟩ : ∃ m, n = m + 1 := by
      have hrun : run Char.isDigit (d :: ds) = 0 + n := by
        rw [← hextent, fraction_of_isToken h]
        rfl
      rw [run_cons_of_pos hd, Nat.zero_add] at hrun
      exact ⟨_, hrun.symm⟩
    rw [take_succ_cons, cons_append, scan_point_of_isDigit hd, scan_point_of_isDigit hd,
      ← hread rest hrest, take_succ_cons, cons_append]
  · have hscan : scan afterOperand '.' cs = mark .dot := by
      cases cs with
      | nil => rfl
      | cons d ds =>
        have hpoint : (d.isDigit && !afterOperand) = false := by
          cases hd : d.isDigit with
          | false => rfl
          | true =>
            cases afterOperand with
            | true => rfl
            | false => exact absurd ⟨rfl, d, ds, rfl, hd⟩ hfraction
        simp [scan, hpoint]
    refine ⟨0, Nat.zero_le _, by rw [hscan]; rfl, fun rest hrest => ?_⟩
    rw [hscan, take_zero, nil_append, scan_point_of_spaced afterOperand hrest]

lemma closed_scan {afterOperand} (h : (scan afterOperand c cs).IsToken k) : Closed 0 (scan afterOperand c) cs := by
  obtain ⟨p, hp⟩ : ∃ p, scan afterOperand c cs = p := ⟨_, rfl⟩
  have heq := hp
  unfold scan at heq
  split at heq
  -- Marks and operators of two characters.
  case h_5 | h_12 | h_14 | h_16 | h_18 | h_19 | h_21 | h_22 | h_24 | h_25 | h_37 =>
    exact (closed_const _ _).cons fun _ => rfl
  -- Comments, alone or ended, are no tokens.
  case h_1 => cases h.kind
  case h_2 => exact absurd h not_isToken_blockComment
  case h_7 => exact absurd h (not_isToken_bad _ _)
  case h_39 => exact closed_scan_point h
  case h_40 => exact closed_string h
  case h_41 =>
    have hthird : Closed 2 (fun ds => scan afterOperand 'r' ('"' :: '"' :: ds)) ('"' :: _) :=
      (closed_rawString h).cons fun _ => rfl
    have hsecond : Closed 1 (fun ds => scan afterOperand 'r' ('"' :: ds)) ('"' :: '"' :: _) :=
      hthird.cons fun _ => rfl
    exact hsecond.cons fun _ => rfl
  case h_42 => exact closed_char h
  case h_43 =>
    rename_i hraw
    split at heq
    · rename_i hdigit
      rw [scan_of_isDigit hdigit] at h
      rw [funext (scan_of_isDigit hdigit afterOperand)]
      exact closed_number h
    · split at heq
      · rename_i hword
        exact closed_scan_word hword afterOperand hraw
      · rw [hp, ← heq] at h
        exact absurd h (not_isToken_bad _ _)
  -- Marks and operators of one character.
  all_goals
    subst heq
    exact closed_single rfl hp rfl fun _ => rfl

end Piece

end SourceCheck
