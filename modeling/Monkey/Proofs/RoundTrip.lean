import Monkey.Proofs.CanonicalText
import Monkey.Proofs.Recognition
import Monkey.Proofs.WellFormed
import Monkey.Unicode.Alphabet

set_option autoImplicit false

namespace Monkey

/-- What parsing the canonical text gives: the statements up to the first that does not fit. -/
def fitting (program : Program) : Program × List ParseError :=
  if ∀ stmt ∈ program, stmt.need ≤ maxNesting then (program, [])
  else (program.takeWhile fun stmt => decide (stmt.need ≤ maxNesting),
    [.nestingTooDeep maxNesting])

theorem fitting_cons_of_le {stmt : Stmt} (h : stmt.need ≤ maxNesting) (program : Program) :
    fitting (stmt :: program) = (stmt :: (fitting program).1, (fitting program).2) := by
  by_cases fits : ∀ other ∈ program, other.need ≤ maxNesting
  · simp [fitting, h, if_pos fits]
  · simp [fitting, h, if_neg fits]

theorem fitting_cons_of_not_le {stmt : Stmt} (h : ¬ stmt.need ≤ maxNesting) (program : Program) :
    fitting (stmt :: program) = ([], [.nestingTooDeep maxNesting]) := by
  simp [fitting, h]

section

variable [Alphabet]

theorem parseStmtsToEnd_tokens {program : Program} (h : Program.wellFormed program = true)
    {cursor : Cursor} {bound : Nat} (settled : cursor.Settled)
    (hahead : cursor.ahead = Program.tokens program)
    (hbound : (Program.tokens program).length ≤ bound) :
    (parseStmtsToEnd Tables.standard (standardLevel maxNesting) bound cursor).1 =
        (fitting program).1 ∧
      (parseStmtsToEnd Tables.standard (standardLevel maxNesting) bound cursor).2.errors =
        cursor.errors ++ (fitting program).2 := by
  induction program generalizing cursor bound with
  | nil =>
    rw [parseStmtsToEnd_of_nil _ _ _ hahead]
    simp [fitting]
  | cons stmt rest ih =>
    rw [Program.wellFormed, Bool.and_eq_true] at h
    rw [Program.tokens] at hahead hbound
    have first := Stmt.derives stmt rest.isEmpty h.1
    have separates : (!rest.isEmpty || !stmt.needsTerminator) = false →
        Separates (Program.tokens rest) := by
      cases rest with
      | nil => exact fun _ => separates_nil
      | cons next rest =>
        intro hopen
        cases hopen
    have long := length_pos_of_headKind (ne_eof_of_startsStatement first.begins)
    rw [List.length_append] at hbound
    obtain ⟨bound, rfl⟩ : ∃ fewer, bound = fewer + 1 := ⟨bound - 1, by omega⟩
    by_cases fits : stmt.need ≤ maxNesting
    · obtain ⟨next, hsettled, herrors, hnext, hrun⟩ :=
        parseStmtsToEnd_of_le first fits settled hahead separates bound
      have shorter : (Program.tokens rest).length ≤ bound := by omega
      obtain ⟨hprogram, hlater⟩ := ih h.2 hsettled hnext shorter
      rw [hrun, hprogram, hlater, herrors, fitting_cons_of_le fits]
      exact ⟨rfl, rfl⟩
    · obtain ⟨last, herrors, hrun⟩ :=
        parseStmtsToEnd_of_not_le first fits settled hahead separates bound
      rw [hrun, herrors, fitting_cons_of_not_le fits]
      exact ⟨rfl, rfl⟩

theorem parse_tokens {program : Program} (h : Program.wellFormed program = true) :
    parse ((Program.tokens program ++ [Token.eof]).map some) = fitting program := by
  have ends := (Program.derives program h).kind_ne_eof
  have ahead := Cursor.ahead_ofSource ((Program.tokens program ++ [Token.eof]).map some)
  rw [List.map_append, List.map_singleton, untilEnd_append_end _ ends,
    ← List.map_singleton, ← List.map_append] at ahead
  have enough := Cursor.ahead_length_le_remaining
    (Cursor.ofSource ((Program.tokens program ++ [Token.eof]).map some))
  rw [ahead] at enough
  obtain ⟨hprogram, herrors⟩ :=
    parseStmtsToEnd_tokens h (Cursor.settled_ofSource _) ahead enough
  rw [parse_source, hprogram, herrors, Cursor.errors_ofSource]
  rfl

/-- The canonical text of every well-formed program is read back to that program, if no statement
needs more levels than there are. Otherwise it is read up to the first one that does. -/
theorem parseSource_text {program : Program} (h : Program.wellFormed program = true)
    (config : Config) : parseSource (Program.text program) config =
      if ∀ stmt ∈ program, stmt.need ≤ maxNesting then (program, [])
      else (program.takeWhile fun stmt => decide (stmt.need ≤ maxNesting),
        [.nestingTooDeep maxNesting]) := by
  rw [parseSource, LexMode.answers_eq, tokenize_text h]
  exact parse_tokens h

end

theorem parseSource_text_adder :
    parseSource (Program.text [.letBinding "add" (.function ["x", "y"]
        [.returning (.binary (.identifier "x") "+" (.identifier "y"))]),
        .expression (.call (.identifier "add") [.integer 1, .unary "-" (.integer 2)])]) {} =
      ([.letBinding "add" (.function ["x", "y"]
        [.returning (.binary (.identifier "x") "+" (.identifier "y"))]),
        .expression (.call (.identifier "add") [.integer 1, .unary "-" (.integer 2)])], []) := by
  have result := @parseSource_text Unicode.alphabet [.letBinding "add" (.function ["x", "y"]
    [.returning (.binary (.identifier "x") "+" (.identifier "y"))]),
    .expression (.call (.identifier "add") [.integer 1, .unary "-" (.integer 2)])] (by decide) {}
  rwa [if_pos (by decide)] at result

section

variable [Alphabet]

theorem wellFormed_of_parseSource {source : String} {config : Config} {program : Program}
    (h : parseSource source config = (program, [])) : Program.wellFormed program = true := by
  have returned := wellFormed_parse fun _ member => genuine_of_mem_answers config.mode source member
  rwa [← parseSource, h] at returned

/-- A program that was parsed without errors is read back from its text without errors exactly if
no statement of its text needs more levels than there are. -/
theorem parseSource_text_iff {source : String} {config : Config} {program : Program}
    (h : parseSource source config = (program, [])) (again : Config) :
    parseSource (Program.text program) again = (program, []) ↔
      ∀ stmt ∈ program, stmt.need ≤ maxNesting := by
  have wellFormed := wellFormed_of_parseSource h
  rw [parseSource, LexMode.answers_eq, tokenize_text wellFormed, parse_tokens wellFormed]
  by_cases fits : ∀ stmt ∈ program, stmt.need ≤ maxNesting
  · rw [fitting, if_pos fits]
    exact ⟨fun _ => fits, fun _ => rfl⟩
  · rw [fitting, if_neg fits]
    refine ⟨fun equal => ?_, fun all => absurd all fits⟩
    cases congrArg Prod.snd equal

end

def negations : Nat → Expr
  | 0 => .identifier "x"
  | count + 1 => .unary "!" (negations count)

def negationText (count : Nat) : String := String.ofList (List.replicate count '!' ++ ['x'])

theorem need_negations (count : Nat) : (negations count).need = 2 * count + 1 := by
  induction count with
  | zero => rfl
  | succ count ih =>
    rw [negations, Expr.need, ih]
    omega

theorem derives_negations (count : Nat) : Derives (.expression .unary (negations count) 0)
    (List.replicate count (Token.symbol '!') ++ [Token.word "x"]) (count + 1) := by
  induction count with
  | zero => exact .looser (@Derives.identifier (Token.word "x") rfl)
  | succ count ih =>
    have whole := @Derives.unary (Token.symbol '!') _ _ _ _ (.inl rfl) ih
    rwa [Nat.add_comm 1 (count + 1)] at whole

section

variable [Alphabet]

theorem scan_negations (count : Nat) : scan (List.replicate count '!' ++ ['x']) =
    (List.replicate count (Token.symbol '!') ++ [Token.word "x"]) ++ [Token.eof] := by
  induction count with
  | zero =>
    have letter : isWordStart 'x' = true := isWordStart_of_isLatinLetter (by decide)
    have word := spells_word "x" letter (by simp [isWordPart_of_isWordStart letter]) [] apart_nil
    rwa [scan_nil] at word
  | succ count ih =>
    have single : (List.replicate count '!' ++ ['x']).head? ≠ some '=' := by
      cases count <;> simp [List.replicate_succ]
    rw [List.replicate_succ, List.cons_append, scan_punctuation rfl (.inl single), ih]
    rfl

/-- In the source, every exclamation mark costs one level. -/
theorem parseSource_negationText {count : Nat} (h : count < maxNesting) (config : Config) :
    parseSource (negationText count) config = ([.expression (negations count)], []) := by
  have value := (derives_negations count).loosen (show Layer.equality.power.rank ≤ _ by decide)
  have stmt := @Derives.expression _ false _ _ _ [] value rfl
  have program := Derives.moreStatements stmt .noStatements fun _ => ⟨by decide, by decide⟩
  rw [List.append_nil, List.append_nil] at program
  have ends := untilEnd_append_end _ program.kind_ne_eof []
  rw [parseSource, LexMode.answers_eq, negationText, tokenize_eq_scan, String.toList_ofList,
    scan_negations, List.map_append, parse_iff_derives, List.map_singleton, ends]
  exact ⟨_, program, by omega⟩

end

theorem parseSource_text_iff_negations :
    parseSource (Program.text [.expression (negations 127)]) {} =
      ([.expression (negations 127)], []) := by
  have parsed := parseSource_negationText (show 127 < maxNesting by decide) {}
  apply (parseSource_text_iff parsed {}).2
  intro stmt member
  obtain rfl := List.mem_singleton.1 member
  rw [Stmt.need, need_negations]
  decide

/-- In the text, every exclamation mark costs two levels, so that half as many are too many. -/
theorem parseSource_text_ne_negations :
    parseSource (String.ofList (List.replicate 128 '!' ++ ['x'])) {} =
        ([.expression (negations 128)], []) ∧
      parseSource (Program.text [.expression (negations 128)]) {} ≠
        ([.expression (negations 128)], []) := by
  have parsed := parseSource_negationText (show 128 < maxNesting by decide) {}
  refine ⟨parsed, ?_⟩
  have wellFormed := wellFormed_of_parseSource parsed
  have deep : ¬ (Stmt.expression (negations 128)).need ≤ maxNesting := by
    rw [Stmt.need, need_negations]
    decide
  rw [parseSource, LexMode.answers_eq, tokenize_text wellFormed, parse_tokens wellFormed,
    fitting_cons_of_not_le deep]
  intro equal
  cases congrArg Prod.snd equal

end Monkey
