import Mathlib.Data.List.DropRight
import SourceCheck.Proofs.Token.Tiles

/-!
# Lines and columns

A token or a complaint is at the line and column where its text starts. But an escape is placed behind the character
it escapes, so where that is a line break, the complaint is at the start of the next line.
-/

namespace SourceCheck

open List

open String (utf8Len utf8Len_append)

/-- The span starts behind `before`. Its line counts the line breaks there and its column the bytes since the last. -/
structure Span.Behind (span : Span) (before : String) : Prop where
  start : span.start = before.utf8ByteSize
  line : span.line = before.toList.count '\n' + 1
  col : span.col = utf8Len (before.toList.rtakeWhile (· ≠ '\n')) + 1

/-- The span starts behind `before`, but its line and column are those behind the next line break. -/
structure Span.BreaksBehind (span : Span) (before : String) : Prop where
  start : span.start = before.utf8ByteSize
  line : span.line = before.toList.count '\n' + 2
  col : span.col = 1

def Report.Placed (r : Report LexicalProblem) (before : String) : Prop :=
  if r.cause = .invalidEscape '\n' then r.span.BreaksBehind before else r.span.Behind before

/-! ### Places -/

namespace Place

lemma after_append (p : Place) (cs ds) : p.after (cs ++ ds) = (p.after cs).after ds :=
  foldl_append

lemma line_after (p : Place) (cs) : (p.after cs).line = p.line + cs.count '\n' := by
  induction cs generalizing p with
  | nil => rfl
  | cons c cs ih =>
    rw [after, foldl_cons, ← after, ih, next, count_cons]
    by_cases hc : c = '\n'
    · simp [hc]
      omega
    · simp [hc]

/-- The line of a place starts behind the last line break. -/
lemma lineStart_after (cs) :
    (({} : Place).after cs).lineStart + utf8Len (cs.rtakeWhile (· ≠ '\n')) = utf8Len cs := by
  induction cs using List.reverseRecOn with
  | nil => rfl
  | append_singleton cs c ih =>
    have hoffset := offset_after {} cs
    rw [after_append]
    change ((({} : Place).after cs).next c).lineStart + _ = _
    by_cases hc : c = '\n'
    · rw [rtakeWhile_concat_neg _ _ _ (by simp [hc]), next, if_pos hc, utf8Len_append]
      simp [hoffset]
    · rw [rtakeWhile_concat_pos _ _ _ (by simpa using hc), next, if_neg hc, utf8Len_append, utf8Len_append, ← ih,
        Nat.add_assoc]

lemma behind_spanTo (file before stop) :
    ((({} : Place).after before).spanTo file stop).Behind (String.ofList before) := by
  have hoffset := offset_after {} before
  have hstart := lineStart_after before
  refine ⟨?_, ?_, ?_⟩
  · simp [spanTo, hoffset, ← String.utf8Len_toList]
  · simp [spanTo, line_after, Nat.add_comm]
  · simp only [spanTo, col, hoffset, String.toList_ofList]
    omega

end Place

/-! ### Tokens and complaints -/

lemma escapes_scan (afterOperand c cs) :
    EscapesIn (c :: cs.take (Piece.scan afterOperand c cs).extent) (Piece.scan afterOperand c cs).badEscapes ∧
      ∀ d, (Piece.scan afterOperand c cs).problem ≠ some (.invalidEscape d) := by
  obtain ⟨rest, rfl, rfl, hscan⟩ | ⟨rest, rfl, rfl, hscan⟩ | htells := Piece.scan_cases afterOperand c cs
  · rw [hscan]
    exact ⟨escapesIn_nil _, by rintro _ ⟨⟩⟩
  · rw [hscan, Piece.blockComment]
    split <;> exact ⟨escapesIn_nil _, by rintro _ ⟨⟩⟩
  · exact ⟨htells.escapes, htells.problem⟩

lemma placed_escapeReport (file before) {text : List Char} {bad : Nat × Char} (h : ['\\', bad.2] <+: text.drop bad.1) :
    (Lexed.escapeReport file (({} : Place).after before) text bad).Placed
    (String.ofList (before ++ text.take bad.1)) := by
  obtain ⟨rest, hrest⟩ := h
  have htake : text.take (bad.1 + 2) = text.take bad.1 ++ ['\\', bad.2] := by
    rw [take_add, ← hrest]
    rfl
  have hplaced := Place.behind_spanTo file (before ++ text.take bad.1) {}
  simp only [Report.Placed, Lexed.escapeReport, htake, ← Place.after_append, ← append_assoc,
    LexicalProblem.invalidEscape.injEq]
  generalize before ++ text.take bad.1 = front at hplaced
  rw [Place.after_append]
  split
  · rename_i hbreak
    refine ⟨hplaced.start, ?_, ?_⟩
    · rw [Place.line_after, hbreak]
      exact congrArg (· + 1) hplaced.line
    · simp [Place.after, Place.next, hbreak]
      omega
  · rename_i hbreak
    refine ⟨hplaced.start, ?_, ?_⟩
    · simp [Place.line_after, hbreak, Nat.add_comm]
    · simpa [Place.after, Place.next, hbreak, Place.spanTo, Place.col] using hplaced.col

/-- Where tokens and complaints are, by the text before each. -/
def Lexed.Placed (l : Lexed) (source : String) : Prop :=
  (∀ t ∈ l.tokens, ∃ before behind, source = before ++ behind ∧ t.span.Behind before) ∧
    ∀ r ∈ l.problems, ∃ before behind, source = before ++ behind ∧ r.Placed before

lemma placed_ofChars (file afterOperand before cs) :
    (Lexed.ofChars file (({} : Place).after before) afterOperand cs).Placed (String.ofList (before ++ cs)) := by
  generalize hplace : ({} : Place).after before = place
  fun_induction Lexed.ofChars file place afterOperand cs generalizing before with
  | case1 =>
    subst hplace
    exact ⟨forall_mem_singleton.2 ⟨_, _, String.ofList_append, Place.behind_spanTo _ _ _⟩, by simp⟩
  | case2 place afterOperand c cs _ ih =>
    have hrest := ih (before ++ [c]) (by rw [Place.after_append, hplace]; rfl)
    rwa [append_assoc] at hrest
  | case3 place afterOperand c cs hc piece text stop after rest token ih =>
    subst hplace
    have hrest := ih (before ++ text) (Place.after_append _ _ _)
    have htext : before ++ text ++ cs.drop piece.extent = before ++ c :: cs := by simp [text]
    obtain ⟨hescapes, hproblem⟩ := escapes_scan afterOperand c cs
    rw [htext] at hrest
    refine ⟨forall_mem_append.2 ⟨?_, hrest.1⟩,
      forall_mem_append.2 ⟨forall_mem_append.2 ⟨?_, ?_⟩, hrest.2⟩⟩
    · exact forall_mem_map.2 fun kind _ => ⟨_, _, String.ofList_append, Place.behind_spanTo _ _ _⟩
    · refine forall_mem_map.2 fun bad hbad => ⟨_, String.ofList (text.drop bad.1 ++ cs.drop piece.extent), ?_,
        placed_escapeReport _ _ (hescapes bad hbad)⟩
      rw [← htext, ← String.ofList_append, append_assoc, append_assoc, ← append_assoc (text.take _),
        take_append_drop]
    · refine forall_mem_map.2 fun p hp => ⟨_, _, String.ofList_append, ?_⟩
      have hcause : p ≠ .invalidEscape '\n' :=
        fun hcause => hproblem _ ((Option.mem_toList.1 hp).trans (congrArg _ hcause))
      rw [Report.Placed, if_neg hcause]
      exact Place.behind_spanTo _ _ _

/-- Every token is at the line and column where it starts, and so is every complaint but one: that a line break cannot
be escaped is told at the start of the line behind it. -/
theorem lex_positions (source : String) (file : Nat) :
    (∀ t ∈ (lex source file).tokens, ∃ before behind, source = before ++ behind ∧ t.span.Behind before) ∧
      ∀ r ∈ (lex source file).problems, ∃ before behind, source = before ++ behind ∧
        if r.cause = .invalidEscape '\n' then r.span.BreaksBehind before else r.span.Behind before := by
  have hplaced := placed_ofChars file false [] source.toList
  rwa [List.nil_append, String.ofList_toList] at hplaced

/-- The backslash in the first line is reported at the start of the second line. -/
theorem lex_positions_shifted :
    (lex "\"\\\n\"").problems = [⟨.invalidEscape '\n', { start := 1, stop := 3, line := 2, col := 1 }⟩] := by
  decide +kernel

end SourceCheck
