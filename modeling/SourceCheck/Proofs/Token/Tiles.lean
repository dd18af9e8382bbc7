import Mathlib.Data.String.Basic
import SourceCheck.Proofs.Token.Layout

/-!
# Tokens tile their text

The tokens of a text stand one behind the other, each where its span says, and one end mark stands at the end. If
nothing is wrong, all that is left between them is blanks and comments.
-/

namespace SourceCheck

open List StringBody

open String (utf8Len utf8Len_append utf8Len_cons utf8Len_nil)

variable {clean' : Prop} {offset' : Nat}

/-! ### Stretches of a text -/

/-- From byte `start` to byte `stop` of `source`, both between characters, stands `text`. -/
structure StandsAt (source : String) (start stop : Nat) (text : String) : Prop where
  start_isValid : (String.Pos.Raw.mk start).IsValid source
  stop_isValid : (String.Pos.Raw.mk stop).IsValid source
  extract_eq : String.Pos.Raw.extract source ⟨start⟩ ⟨stop⟩ = text

lemma isValid_utf8Len (before behind) :
    (String.Pos.Raw.mk (utf8Len before)).IsValid (String.ofList (before ++ behind)) := by
  rw [String.Pos.Raw.isValid_iff_exists_append]
  refine ⟨String.ofList before, String.ofList behind, String.ofList_append, ?_⟩
  simp

lemma standsAt_utf8Len (before text behind) :
    StandsAt (String.ofList (before ++ (text ++ behind))) (utf8Len before) (utf8Len before + utf8Len text)
      (String.ofList text) := by
  refine ⟨isValid_utf8Len before (text ++ behind), ?_, ?_⟩
  · rw [← utf8Len_append, ← append_assoc]
    exact isValid_utf8Len (before ++ text) behind
  · rw [← append_assoc]
    exact String.extract_of_valid before text behind

lemma Place.offset_next (p : Place) (c : Char) : (p.next c).offset = p.offset + c.utf8Size := by
  unfold Place.next
  split <;> rfl

lemma Place.offset_after (p : Place) (cs) : (p.after cs).offset = p.offset + utf8Len cs := by
  induction cs generalizing p with
  | nil => rfl
  | cons c cs ih =>
    rw [Place.after, foldl_cons, ← Place.after, ih, Place.offset_next, utf8Len_cons]
    omega

/-! ### Blanks and comments -/

/-- Blanks and complete comments. A line comment is complete with the line break, or with the end of the text; a block
comment goes up to the first end mark. -/
inductive Filler (atEnd : Bool) : List Char → Prop where
  | nil : Filler atEnd []
  | blank {c cs} :
    isBlank c = true →
    Filler atEnd cs →
    Filler atEnd (c :: cs)
  | line {body cs} :
    '\n' ∉ body →
    Filler atEnd ('\n' :: cs) →
    Filler atEnd (['/', '/'] ++ body ++ '\n' :: cs)
  | lastLine {body} :
    atEnd = true →
    '\n' ∉ body →
    Filler atEnd (['/', '/'] ++ body)
  | block {body cs} :
    ¬ ['*', '/'] <:+: body ++ ['*'] →
    Filler atEnd cs →
    Filler atEnd (['/', '*'] ++ body ++ ['*', '/'] ++ cs)

/-! ### Escapes -/

/-- Complaints about escapes are about a backslash of the text and the character behind it. -/
def EscapesIn (text : List Char) (escapes : List (Nat × Char)) : Prop :=
  ∀ bad ∈ escapes, ['\\', bad.2] <+: text.drop bad.1

lemma escapesIn_nil (text) : EscapesIn text [] := by
  simp [EscapesIn]

namespace StringBody

variable {body : StringBody} {front cs : List Char} {c : Char} {position : Nat}

lemma escapesIn_push (h : EscapesIn (front ++ [c] ++ cs.take body.size) body.badEscapes) :
    EscapesIn (front ++ (c :: cs).take (push c body).size) (push c body).badEscapes := by
  simpa [push] using h

lemma escapesIn_pushEscape (hfront : front.length = position)
    (h : EscapesIn (front ++ ['\\', c] ++ cs.take body.size) body.badEscapes) :
    EscapesIn (front ++ ('\\' :: c :: cs).take (pushEscape position c body).size)
      (pushEscape position c body).badEscapes := by
  unfold pushEscape
  split
  · simpa using h
  · refine forall_mem_cons.2 ⟨?_, by simpa [EscapesIn] using h⟩
    rw [← hfront, drop_left]
    exact ⟨cs.take body.size, rfl⟩

lemma escapesIn_ofLine (hfront : front.length = position) :
    EscapesIn (front ++ cs.take (ofLine position cs).size) (ofLine position cs).badEscapes := by
  fun_induction ofLine position cs generalizing front with
  | case5 position c cs ih => exact escapesIn_pushEscape hfront (ih (by simp [hfront]))
  | case6 position c cs _ _ _ _ ih => exact escapesIn_push (ih (by simp [hfront]))
  | _ => exact escapesIn_nil _

lemma escapesIn_ofBlock (hfront : front.length = position) :
    EscapesIn (front ++ cs.take (ofBlock position cs).size) (ofBlock position cs).badEscapes := by
  fun_induction ofBlock position cs generalizing front with
  | case4 position c cs ih => exact escapesIn_pushEscape hfront (ih (by simp [hfront]))
  | case5 position c cs _ _ _ ih => exact escapesIn_push (ih (by simp [hfront]))
  | _ => exact escapesIn_nil _

lemma badEscapes_ofRaw (cs) : (ofRaw cs).badEscapes = [] := by
  fun_induction ofRaw cs with
  | case3 c cs _ ih => exact ih
  | _ => rfl

end StringBody

namespace Piece

variable {text : List Char}

/-- A piece that leaves a token other than the end mark, or a complaint. It reads `text`. -/
structure Tells (text : List Char) (p : Piece) : Prop where
  kind_ne_eof : p.kind ≠ some .eof
  tells : p.kind ≠ none ∨ p.badEscapes ≠ [] ∨ p.problem ≠ none
  escapes : EscapesIn text p.badEscapes
  problem : ∀ c, p.problem ≠ some (.invalidEscape c)

lemma tells_token {k} (hk : k ≠ .eof) (extent) : (token k extent).Tells text :=
  ⟨fun h => hk (Option.some.inj h), .inl nofun, escapesIn_nil _, nofun⟩

lemma tells_bad {problem} (h : ∀ c, problem ≠ .invalidEscape c) (extent) : (bad problem extent).Tells text :=
  ⟨nofun, .inr (.inr nofun), escapesIn_nil _, fun c hc => h c (Option.some.inj hc)⟩

lemma tells_word (first cs) : (word first cs).Tells text := by
  unfold word
  dsimp only
  split <;> exact tells_token (by rintro ⟨⟩) _

lemma tells_prefixedInt (base mark cs) : (prefixedInt base mark cs).Tells text := by
  unfold prefixedInt
  dsimp only
  split
  · exact tells_bad (by rintro _ ⟨⟩) _
  · split
    · exact tells_bad (by rintro _ ⟨⟩) _
    · split
      · exact tells_token (by rintro ⟨⟩) _
      · exact tells_bad (by rintro _ ⟨⟩) _

lemma Tells.endNumber {piece} (h : piece.Tells text) (kind first cs extent) :
    (endNumber kind first cs extent piece).Tells text := by
  unfold Piece.endNumber
  split
  · split
    · exact tells_bad (by rintro _ ⟨⟩) _
    · exact h
  · exact h

lemma tells_decimal (first cs) : (decimal first cs).Tells text := by
  have hinteger (value n : Nat) (kind number) :
      (if value < intLimit then token (.int value .decimal) n else bad (.numberTooLarge kind number) n).Tells text := by
    split
    · exact tells_token (by rintro ⟨⟩) _
    · exact tells_bad (by rintro _ ⟨⟩) _
  have hfloat (whole digits : List Char) (n : Nat) : (token (floatOf whole digits) n).Tells text :=
    tells_token (by rintro ⟨⟩) _
  unfold decimal
  dsimp only
  split
  · split
    · split
      · exact (hfloat _ _ _).endNumber _ _ _ _
      · split
        · exact (hinteger _ _ _ _).endNumber _ _ _ _
        · exact (hfloat _ _ _).endNumber _ _ _ _
    · exact hfloat _ _ _
  · exact (hinteger _ _ _ _).endNumber _ _ _ _

lemma tells_number (first cs) : (number first cs).Tells text := by
  unfold number
  split
  case h_6 => exact tells_decimal _ _
  all_goals exact tells_prefixedInt _ _ _

lemma tells_fraction (cs) : (fraction cs).Tells text :=
  (tells_token (by rintro ⟨⟩) _).endNumber _ _ _ _

lemma tells_body {body : StringBody} (hescapes : EscapesIn text body.badEscapes) (form opening) :
    (body.piece form opening).Tells text := by
  cases hclosed : body.closed with
  | true =>
    exact ⟨by simp [piece, hclosed], .inl (by simp [piece, hclosed]), hescapes,
      by simp [piece, hclosed]⟩
  | false =>
    exact ⟨by simp [piece, hclosed], .inr (.inr (by simp [piece, hclosed])), hescapes,
      by simp [piece, hclosed]⟩

lemma tells_string (cs) : (string cs).Tells ('"' :: cs.take (string cs).extent) := by
  unfold string
  split
  · refine tells_body ?_ _ _
    rw [piece, Nat.add_comm]
    exact escapesIn_ofBlock (rfl : ['"', '"', '"'].length = 3)
  · refine tells_body ?_ _ _
    rw [piece, Nat.zero_add]
    exact escapesIn_ofLine (rfl : ['"'].length = 1)

lemma tells_endChar {value escapes} (h : value ≠ none ∨ escapes ≠ []) (hescapes : EscapesIn text escapes)
    (size cs) : (endChar value escapes size cs).Tells text := by
  unfold endChar
  split
  · refine ⟨by cases value <;> simp, ?_, hescapes, nofun⟩
    obtain hvalue | hne := h
    · exact .inl (by simpa using hvalue)
    · exact .inr (.inl hne)
  · exact ⟨nofun, .inr (.inr nofun), hescapes, nofun⟩

lemma le_extent_endChar (value escapes size cs) : size ≤ (endChar value escapes size cs).extent := by
  unfold endChar
  split <;> simp

lemma tells_char (cs) : (char cs).Tells ('\'' :: cs.take (char cs).extent) := by
  unfold char
  split
  case h_5 c cs =>
    split
    · exact tells_endChar (.inl (by rintro ⟨⟩)) (escapesIn_nil _) _ _
    · refine tells_endChar (.inr (by rintro ⟨⟩)) ?_ _ _
      obtain ⟨n, hn⟩ := Nat.exists_eq_add_of_le' (le_extent_endChar none [(1, c)] 2 cs)
      rw [hn]
      simp [EscapesIn]
  case h_6 => exact tells_endChar (.inl (by rintro ⟨⟩)) (escapesIn_nil _) _ _
  all_goals exact tells_bad (by rintro _ ⟨⟩) _

lemma scan_cases (afterOperand c cs) :
    (∃ rest, c = '/' ∧ cs = '/' :: rest ∧ scan afterOperand c cs = lineComment rest) ∨
      (∃ rest, c = '/' ∧ cs = '*' :: rest ∧ scan afterOperand c cs = blockComment rest) ∨
      (scan afterOperand c cs).Tells (c :: cs.take (scan afterOperand c cs).extent) := by
  unfold scan
  split
  case h_1 => exact .inl ⟨_, rfl, rfl, rfl⟩
  case h_2 => exact .inr (.inl ⟨_, rfl, rfl, rfl⟩)
  case h_7 => exact .inr (.inr (tells_bad (by rintro _ ⟨⟩) _))
  case h_39 =>
    refine .inr (.inr ?_)
    split
    · split
      · exact tells_fraction _
      · exact tells_token (by rintro ⟨⟩) _
    · exact tells_token (by rintro ⟨⟩) _
  case h_40 => exact .inr (.inr (tells_string _))
  case h_41 => exact .inr (.inr (tells_body (by rw [badEscapes_ofRaw]; exact escapesIn_nil _) _ _))
  case h_42 => exact .inr (.inr (tells_char _))
  case h_43 =>
    refine .inr (.inr ?_)
    split
    · exact tells_number _ _
    · split
      · exact tells_word _ _
      · exact tells_bad (by rintro _ ⟨⟩) _
  all_goals exact .inr (.inr (tells_token (by rintro ⟨⟩) _))

lemma lineComment_split (rest) :
    ∃ body behind, '\n' ∉ body ∧ rest = body ++ behind ∧ (lineComment rest).extent = body.length + 1 ∧
      (behind = [] ∨ ∃ cs, behind = '\n' :: cs) := by
  refine ⟨rest.takeWhile (· ≠ '\n'), rest.dropWhile (· ≠ '\n'), fun h => ?_,
    takeWhile_append_dropWhile.symm, rfl, ?_⟩
  · simpa using mem_takeWhile_imp h
  · cases hbehind : rest.dropWhile (· ≠ '\n') with
    | nil => exact .inl rfl
    | cons c cs =>
      have hc := List.head?_dropWhile_not (fun c => decide (c ≠ '\n')) rest
      rw [hbehind, List.head?_cons] at hc
      obtain rfl : c = '\n' := by simpa using hc
      exact .inr ⟨cs, rfl⟩

lemma commentBody_split {cs} (h : (commentBody cs).2 = true) :
    ∃ body behind, ¬ ['*', '/'] <:+: body ++ ['*'] ∧ cs = body ++ ['*', '/'] ++ behind ∧
      (commentBody cs).1 = body.length + 2 := by
  fun_induction commentBody cs with
  | case1 => cases h
  | case2 behind => exact ⟨[], behind, by decide, rfl, rfl⟩
  | case3 c cs hopen ih =>
    obtain ⟨body, behind, hbody, rfl, hsize⟩ := ih h
    refine ⟨c :: body, behind, fun hmark => ?_, rfl, congrArg (· + 1) hsize⟩
    obtain hfront | htail := infix_cons_iff.1 hmark
    · -- an end mark in front would have ended the comment here
      obtain ⟨tail, htail⟩ := hfront
      cases body with
      | nil => simp at htail
      | cons d body =>
        simp only [cons_append, List.cons.injEq] at htail
        obtain ⟨rfl, rfl, -⟩ := htail
        exact hopen _ rfl rfl
    · exact hbody htail

lemma blockComment_split (rest) :
    (∃ body behind, ¬ ['*', '/'] <:+: body ++ ['*'] ∧ rest = body ++ ['*', '/'] ++ behind ∧
      blockComment rest = { extent := (body ++ ['*', '/']).length + 1 }) ∨
      (blockComment rest).Tells text := by
  cases hclosed : (commentBody rest).2 with
  | true =>
    obtain ⟨body, behind, hbody, hrest, hsize⟩ := commentBody_split hclosed
    refine .inl ⟨body, behind, hbody, hrest, ?_⟩
    have hpair : commentBody rest = (body.length + 2, true) := Prod.ext hsize hclosed
    rw [blockComment, hpair, length_append]
    rfl
  | false =>
    have hpair : commentBody rest = ((commentBody rest).1, false) := Prod.ext rfl hclosed
    rw [blockComment, hpair]
    exact .inr (tells_bad (by rintro _ ⟨⟩) _)

end Piece

/-! ### Texts taken apart -/

/-- A text behind `offset` bytes, taken apart into tokens and what is between: blanks and comments if it is `clean`. -/
inductive Tiled (clean : Prop) : Nat → List Char → List Token → Prop where
  | eof {offset gap t} :
    (clean → Filler true gap) →
    t.kind = .eof →
    t.span.start = offset + utf8Len gap →
    t.span.stop = offset + utf8Len gap →
    Tiled clean offset gap [t]
  | token {offset gap c text behind t ts} :
    (clean → Filler false gap) →
    t.kind ≠ .eof →
    isBlank c = false →
    t.lexeme = String.ofList (c :: text) →
    t.span.start = offset + utf8Len gap →
    t.span.stop = t.span.start + utf8Len (c :: text) →
    Tiled clean t.span.stop behind ts →
    Tiled clean offset (gap ++ (c :: text ++ behind)) (t :: ts)

namespace Tiled

variable {clean : Prop} {offset : Nat} {cs : List Char} {ts : List Token}

section

variable (h : Tiled clean offset cs ts)

include h

lemma mono (himp : clean' → clean) : Tiled clean' offset cs ts := by
  induction h with
  | eof hgap hkind hstart hstop => exact .eof (hgap ∘ himp) hkind hstart hstop
  | token hgap hkind hc hlexeme hstart hstop _ ih =>
    exact .token (hgap ∘ himp) hkind hc hlexeme hstart hstop ih

/-- More text in front that belongs to no token. What comes next is the end or no blank. -/
lemma before {front}
    (hoffset : offset = offset' + utf8Len front) (hclean : clean' → clean)
    (hend : clean' → ∀ gap, gap = cs → Filler true gap → Filler true (front ++ gap))
    (hnext : clean' → ∀ gap c behind, isBlank c = false → gap ++ c :: behind = cs → Filler false gap →
      Filler false (front ++ gap)) : Tiled clean' offset' (front ++ cs) ts := by
  subst hoffset
  cases h with
  | eof hgap hkind hstart hstop =>
    refine .eof (fun h => hend h _ rfl (hgap (hclean h))) hkind ?_ ?_
    · rw [hstart, utf8Len_append, Nat.add_assoc]
    · rw [hstop, utf8Len_append, Nat.add_assoc]
  | token hgap hkind hc hlexeme hstart hstop hrest =>
    rw [← append_assoc]
    refine .token (fun h => hnext h _ _ _ hc rfl (hgap (hclean h))) hkind hc hlexeme ?_ hstop (hrest.mono hclean)
    rw [hstart, utf8Len_append, Nat.add_assoc]

lemma blank {c} (hc : isBlank c = true) {offset'}
    (hoffset : offset = offset' + c.utf8Size) : Tiled clean offset' (c :: cs) ts := by
  have hfront : offset = offset' + utf8Len [c] := by simpa using hoffset
  exact h.before hfront id (fun _ _ _ => .blank hc) fun _ _ _ _ _ _ => .blank hc

lemma lineComment {body} (hbody : '\n' ∉ body)
    (hcs : cs = [] ∨ ∃ ds, cs = '\n' :: ds) (hoffset : offset = offset' + utf8Len (['/', '/'] ++ body)) :
    Tiled clean offset' (['/', '/'] ++ body ++ cs) ts := by
  refine h.before hoffset id (fun _ gap hgap hfiller => ?_) fun _ gap c behind hc hgap hfiller => ?_
  · obtain rfl | ⟨ds, rfl⟩ := hcs
    · subst hgap
      rw [append_nil]
      exact .lastLine rfl hbody
    · subst hgap
      exact .line hbody hfiller
  · -- the line break is a blank, so it stands before the next token
    obtain rfl | ⟨ds, rfl⟩ := hcs
    · simp at hgap
    · cases gap with
      | nil =>
        obtain ⟨rfl, -⟩ := List.cons.inj hgap
        exact absurd hc (by decide)
      | cons d gap =>
        obtain ⟨rfl, -⟩ := List.cons.inj hgap
        exact .line hbody hfiller

lemma blockComment {body} (hbody : ¬ ['*', '/'] <:+: body ++ ['*'])
    (hoffset : offset = offset' + utf8Len (['/', '*'] ++ body ++ ['*', '/'])) :
    Tiled clean offset' (['/', '*'] ++ body ++ ['*', '/'] ++ cs) ts :=
  h.before hoffset id (fun _ _ _ => .block hbody) fun _ _ _ _ _ _ => .block hbody

lemma skip {front}
    (hoffset : offset = offset' + utf8Len front) (hclean : ¬ clean') : Tiled clean' offset' (front ++ cs) ts :=
  h.before hoffset (absurd · hclean) (absurd · hclean) (absurd · hclean)

end

end Tiled

section Piece

variable {clean : Prop} {file : Nat} {afterOperand : Bool} {c : Char} {cs : List Char} {ts : List Token}

lemma tiled_of_tells {start stop text piece} (hpiece : piece.Tells (c :: text))
    (hc : isBlank c = false) (hstop : stop = start.after (c :: text)) (h : Tiled clean stop.offset cs ts) :
    Tiled (Lexed.pieceReports file start stop (c :: text) piece = [] ∧ clean) start.offset (c :: text ++ cs)
      (piece.kind.toList.map (fun kind => ⟨kind, String.ofList (c :: text), start.spanTo file stop⟩) ++ ts) := by
  have hoffset : stop.offset = start.offset + utf8Len (c :: text) := hstop ▸ Place.offset_after _ _
  cases hkind : piece.kind with
  | none =>
    refine h.skip hoffset fun hclean => ?_
    obtain ⟨hescapes, hproblem⟩ := eq_nil_of_pieceReports hclean.1
    exact hpiece.tells.elim (· hkind) fun htells => htells.elim (· hescapes) (· hproblem)
  | some k =>
    have hk : k ≠ .eof := fun hk => hpiece.kind_ne_eof (hkind.trans (congrArg some hk))
    exact @Tiled.token _ _ [] _ _ _ _ _ (fun _ => .nil) hk hc rfl rfl hoffset (h.mono And.right)

lemma tiled_scan {start stop piece} (hpiece : piece = Piece.scan afterOperand c cs) (hc : isBlank c = false)
    (hstop : stop = start.after (c :: cs.take piece.extent)) (h : Tiled clean stop.offset (cs.drop piece.extent) ts) :
    Tiled (Lexed.pieceReports file start stop (c :: cs.take piece.extent) piece = [] ∧ clean) start.offset (c :: cs)
      (piece.kind.toList.map
        (fun kind => ⟨kind, String.ofList (c :: cs.take piece.extent), start.spanTo file stop⟩) ++ ts) := by
  have hoffset : stop.offset = start.offset + utf8Len (c :: cs.take piece.extent) := hstop ▸ Place.offset_after _ _
  have htold (htells : piece.Tells (c :: cs.take piece.extent)) :=
    @tiled_of_tells _ file _ _ _ _ _ _ _ htells hc hstop h
  rw [cons_append, take_append_drop] at htold
  obtain ⟨tail, rfl, rfl, hscan⟩ | ⟨tail, rfl, rfl, hscan⟩ | htells := Piece.scan_cases afterOperand c cs
  · obtain ⟨body, behind, hbody, rfl, hextent, hbehind⟩ := Piece.lineComment_split tail
    rw [hscan] at hpiece
    rw [hpiece, hextent] at h hoffset
    have hkind : piece.kind = none := by rw [hpiece, Piece.lineComment]
    simp only [drop_succ_cons, drop_left', take_succ_cons, take_left'] at h hoffset
    rw [hkind]
    exact (h.lineComment hbody hbehind hoffset).mono And.right
  · obtain ⟨body, behind, hbody, rfl, hblock⟩ | htells := Piece.blockComment_split tail
    · rw [hscan, hblock] at hpiece
      rw [hpiece] at h hoffset
      have hkind : piece.kind = none := by rw [hpiece]
      simp only [drop_succ_cons, drop_left', take_succ_cons, take_left'] at h hoffset
      rw [hkind]
      exact (h.blockComment hbody hoffset).mono And.right
    · exact htold (hpiece ▸ hscan ▸ htells)
  · exact htold (hpiece ▸ htells)

end Piece

lemma tiled_ofChars (file) (place : Place) (afterOperand cs) :
    Tiled ((Lexed.ofChars file place afterOperand cs).problems = []) place.offset cs
      (Lexed.ofChars file place afterOperand cs).tokens := by
  fun_induction Lexed.ofChars file place afterOperand cs with
  | case1 => exact .eof (fun _ => .nil) rfl rfl rfl
  | case2 place afterOperand c cs hc ih => exact ih.blank hc (Place.offset_next place c)
  | case3 place afterOperand c cs hc piece text stop after rest token ih =>
    exact (tiled_scan rfl (by simpa using hc) rfl ih).mono append_eq_nil_iff.1

namespace Tiled

variable {clean : Prop} {offset : Nat} {cs : List Char} {ts : List Token}

section

variable (h : Tiled clean offset cs ts)

include h

lemma exists_eof :
    ∃ init last, ts = init ++ [last] ∧ (∀ t ∈ init, t.kind ≠ .eof) ∧ last.kind = .eof ∧
      last.span.start = offset + utf8Len cs ∧ last.span.stop = offset + utf8Len cs := by
  induction h with
  | eof _ hkind hstart hstop => exact ⟨[], _, rfl, nofun, hkind, hstart, hstop⟩
  | @token offset gap c text behind t ts _ hkind _ _ hstart hstop _ ih =>
    obtain ⟨init, last, rfl, hinit, hlast, hfrom, hto⟩ := ih
    have hend : t.span.stop + utf8Len behind = offset + utf8Len (gap ++ (c :: text ++ behind)) := by
      rw [hstop, hstart, utf8Len_append, utf8Len_append]
      omega
    exact ⟨t :: init, last, rfl, forall_mem_cons.2 ⟨hkind, hinit⟩, hlast, hfrom.trans hend, hto.trans hend⟩

lemma standsAt {before} (hbefore : offset = utf8Len before) :
    ∀ t ∈ ts, t.kind ≠ .eof →
      t.lexeme ≠ "" ∧ StandsAt (String.ofList (before ++ cs)) t.span.start t.span.stop t.lexeme := by
  induction h generalizing before with
  | eof _ hkind => exact fun t ht hne => absurd ((mem_singleton.1 ht) ▸ hkind) hne
  | @token offset gap c text behind t ts _ hkind _ hlexeme hstart hstop _ ih =>
    subst hbefore
    rw [← utf8Len_append] at hstart
    rw [← append_assoc]
    refine forall_mem_cons.2 ⟨fun _ => ⟨by simp [hlexeme], ?_⟩, ?_⟩
    · rw [hstop, hstart, hlexeme]
      exact standsAt_utf8Len (before ++ gap) (c :: text) behind
    · rw [← append_assoc (before ++ gap)]
      exact ih (by rw [hstop, hstart, ← utf8Len_append])

lemma offset_le : ∀ t ∈ ts, offset ≤ t.span.start := by
  induction h with
  | eof _ _ hstart => exact fun t ht => (mem_singleton.1 ht) ▸ hstart ▸ Nat.le_add_right _ _
  | token _ _ _ _ hstart hstop _ ih =>
    refine forall_mem_cons.2 ⟨hstart ▸ Nat.le_add_right _ _, fun u hu => ?_⟩
    have hle := ih u hu
    omega

lemma pairwise :
    ts.Pairwise fun t u => t.span.start < u.span.start ∧ t.span.stop ≤ u.span.start := by
  induction h with
  | eof => exact pairwise_singleton _ _
  | @token offset gap c text behind t ts _ _ _ _ _ hstop hrest ih =>
    refine pairwise_cons.2 ⟨fun u hu => ?_, ih⟩
    have hle := hrest.offset_le u hu
    have hpos := c.utf8Size_pos
    rw [utf8Len_cons] at hstop
    omega

lemma filler (hclean : clean) {before} (hbefore : offset = utf8Len before) :
    ∀ p ∈ (offset :: ts.map (·.span.stop)).zip ts,
      ∃ gap, StandsAt (String.ofList (before ++ cs)) p.1 p.2.span.start gap ∧
        Filler (p.2.kind = .eof) gap.toList := by
  induction h generalizing before with
  | @eof offset gap t hgap hkind hstart hstop =>
    subst hbefore
    simp only [map_cons, map_nil, zip_cons_cons, zip_nil_right, mem_singleton, forall_eq]
    refine ⟨String.ofList gap, ?_, by simpa [hkind] using hgap hclean⟩
    rw [hstart]
    simpa using standsAt_utf8Len before gap []
  | @token offset gap c text behind t ts hgap hkind _ _ hstart hstop _ ih =>
    subst hbefore
    rw [map_cons, zip_cons_cons]
    refine forall_mem_cons.2 ⟨⟨String.ofList gap, ?_, by simpa [hkind] using hgap hclean⟩, ?_⟩
    · rw [hstart]
      exact standsAt_utf8Len before gap (c :: text ++ behind)
    · have hstop' : t.span.stop = utf8Len (before ++ gap ++ (c :: text)) := by
        rw [hstop, hstart, utf8Len_append, utf8Len_append]
      rw [← append_assoc, ← append_assoc]
      exact ih hstop'

end

end Tiled

/-- Tokens tile the source: one end mark stands at the end of the text; every other token has a text, which stands in
the source where the token's span says; each token ends before the next one starts. If nothing is wrong with the
source, only blanks and complete comments stand before, between and behind the tokens. -/
theorem lex_tiles (source : String) (file : Nat) :
    ∃ ts last, (lex source file).tokens = ts ++ [last] ∧
      last.kind = .eof ∧ last.span.start = source.utf8ByteSize ∧ last.span.stop = source.utf8ByteSize ∧
      (∀ t ∈ ts, t.kind ≠ .eof ∧ t.lexeme ≠ "" ∧ StandsAt source t.span.start t.span.stop t.lexeme) ∧
      (ts ++ [last]).Pairwise (fun t u => t.span.start < u.span.start ∧ t.span.stop ≤ u.span.start) ∧
      ((lex source file).problems = [] →
        ∀ p ∈ (0 :: (ts ++ [last]).map (·.span.stop)).zip (ts ++ [last]),
          ∃ gap, StandsAt source p.1 p.2.span.start gap ∧ Filler (p.2.kind = .eof) gap.toList) := by
  have htiled : Tiled ((lex source file).problems = []) 0 source.toList (lex source file).tokens :=
    tiled_ofChars file {} false source.toList
  have hsize : source.utf8ByteSize = 0 + utf8Len source.toList := by
    rw [← String.utf8ByteSize_ofList, String.ofList_toList, Nat.zero_add]
  obtain ⟨ts, last, htokens, hts, hlast, hstart, hstop⟩ := htiled.exists_eof
  rw [← hsize] at hstart hstop
  have hstands := htiled.standsAt (show 0 = utf8Len [] from rfl)
  rw [List.nil_append, String.ofList_toList] at hstands
  refine ⟨ts, last, htokens, hlast, hstart, hstop, fun t ht => ⟨hts t ht, ?_⟩, htokens ▸ htiled.pairwise,
    fun h => ?_⟩
  · exact hstands t (htokens ▸ List.mem_append_left _ ht) (hts t ht)
  · have hfiller := htiled.filler h (show 0 = utf8Len [] from rfl)
    rwa [List.nil_append, String.ofList_toList, htokens] at hfiller

/-- A comment of two-byte characters and one that ends with the text. -/
def commentedSource : String :=
  "/*é/ * */f//é\n.0 \"\"\"é\n\"\"\"//"

theorem lex_tiles_commentedSource :
    (lex commentedSource).problems = [] ∧
      ∀ p ∈ (0 :: (lex commentedSource).tokens.map (·.span.stop)).zip (lex commentedSource).tokens,
        ∃ gap, StandsAt commentedSource p.1 p.2.span.start gap ∧ Filler (p.2.kind = .eof) gap.toList := by
  have h : (lex commentedSource).problems = [] := by decide +kernel
  obtain ⟨ts, last, htokens, -, -, -, -, -, hfiller⟩ := lex_tiles commentedSource 0
  exact ⟨h, htokens ▸ hfiller h⟩

end SourceCheck
