import Monkey.Proofs.Opening
import Monkey.Unicode.Alphabet

set_option autoImplicit false

namespace Monkey

section Items

variable {α : Type} {chars : α → List Char} {items others : List α} {rest beyond : List Char}

def StopsItem (rest : List Char) : Prop := rest.head? = some ',' ∨ rest.head? = some ')'

theorem stopsItem_moreItems (items : List (List Char)) (rest : List Char) :
    StopsItem ((items.flatMap fun next => [',', ' '] ++ next) ++ ')' :: rest) := by
  cases items with
  | nil => exact .inr rfl
  | cons item items => exact .inl rfl

theorem moreItems_unique
    (reads : ∀ item ∈ items, ∀ other ∈ others, ∀ rest beyond, StopsItem rest → StopsItem beyond →
      chars item ++ rest = chars other ++ beyond → item = other ∧ rest = beyond)
    (same : ((items.map chars).flatMap fun next => [',', ' '] ++ next) ++ ')' :: rest =
      ((others.map chars).flatMap fun next => [',', ' '] ++ next) ++ ')' :: beyond) :
    items = others ∧ rest = beyond := by
  induction items generalizing others with
  | nil =>
    cases others with
    | nil => simpa using same
    | cons other others => simp at same
  | cons item items ih =>
    cases others with
    | nil => simp at same
    | cons other others =>
      simp only [List.map_cons, List.flatMap_cons, List.append_assoc, List.cons_append,
        List.nil_append, List.cons.injEq, true_and] at same
      obtain ⟨rfl, later⟩ := reads item List.mem_cons_self other List.mem_cons_self _ _
        (stopsItem_moreItems _ _) (stopsItem_moreItems _ _) same
      obtain ⟨rfl, last⟩ := ih (fun item member other memberOther => reads item
        (List.mem_cons_of_mem _ member) other (List.mem_cons_of_mem _ memberOther)) later
      exact ⟨rfl, last⟩

/-- A list is read off its text if its items are and none of them begins with its end. -/
theorem commaSeparated_unique
    (reads : ∀ item ∈ items, ∀ other ∈ others, ∀ rest beyond, StopsItem rest → StopsItem beyond →
      chars item ++ rest = chars other ++ beyond → item = other ∧ rest = beyond)
    (begins : ∀ item, item ∈ items ∨ item ∈ others → ∀ rest, StopsItem rest →
      (chars item ++ rest).head? ≠ some ')')
    (same : commaSeparated (items.map chars) ++ ')' :: rest =
      commaSeparated (others.map chars) ++ ')' :: beyond) :
    items = others ∧ rest = beyond := by
  cases items with
  | nil =>
    cases others with
    | nil => simpa [commaSeparated] using same
    | cons other others =>
      simp only [List.map_nil, List.map_cons, commaSeparated, List.append_assoc] at same
      have starts := begins other (.inr List.mem_cons_self) _
        (stopsItem_moreItems (others.map chars) beyond)
      rw [← same] at starts
      exact absurd rfl starts
  | cons item items =>
    cases others with
    | nil =>
      simp only [List.map_nil, List.map_cons, commaSeparated, List.append_assoc] at same
      have starts := begins item (.inl List.mem_cons_self) _
        (stopsItem_moreItems (items.map chars) rest)
      rw [same] at starts
      exact absurd rfl starts
    | cons other others =>
      simp only [List.map_cons, commaSeparated, List.append_assoc] at same
      obtain ⟨rfl, later⟩ := reads item List.mem_cons_self other List.mem_cons_self _ _
        (stopsItem_moreItems _ _) (stopsItem_moreItems _ _) same
      obtain ⟨rfl, last⟩ := moreItems_unique (fun item member other memberOther => reads item
        (List.mem_cons_of_mem _ member) other (List.mem_cons_of_mem _ memberOther)) later
      exact ⟨rfl, last⟩

end Items

theorem integer_chars (one : Int64) :
    (Expr.integer one).opening = .dash ∧
        (Expr.integer one).chars = '-' :: Nat.toDigits 10 one.toInt.natAbs ∨
      (Expr.integer one).opening = .number ∧
        (Expr.integer one).chars = Nat.toDigits 10 one.toInt.natAbs := by
  simp only [Expr.opening, Expr.chars, Integer.writeChars]
  split <;> simp

theorem opening_calledWith {callee : Expr} (lists : List (List Expr)) :
    (callee.calledWith lists).opening = callee.opening := by
  induction lists generalizing callee with
  | nil => rfl
  | cons arguments lists ih => exact ih

theorem exists_integer {value : Expr} (h : value.opening = .dash ∨ value.opening = .number) :
    ∃ (one : Int64) (lists : List (List Expr)), value = (Expr.integer one).calledWith lists := by
  obtain ⟨callee, lists, rfl, flat⟩ := value.exists_calledWith
  rw [opening_calledWith] at h
  cases callee with
  | integer one => exact ⟨one, lists, rfl⟩
  | _ => grind [Expr.opening, Expr.calls]

theorem unaryOperator_unique {operator other : String} {text more : List Char}
    (h : operator ∈ unaryOperators) (hother : other ∈ unaryOperators)
    (same : operator.toList ++ text = other.toList ++ more) : operator = other ∧ text = more := by
  simp only [unaryOperators, List.mem_cons, List.not_mem_nil, or_false] at h hother
  rcases h with rfl | rfl <;> rcases hother with rfl | rfl <;> simp_all

theorem binaryOperator_unique {operator other : String} {text more : List Char}
    (h : operator ∈ binaryOperators) (hother : other ∈ binaryOperators)
    (same : operator.toList ++ ' ' :: text = other.toList ++ ' ' :: more) :
    operator = other ∧ text = more := by
  have run : ∀ operator ∈ binaryOperators, ∀ rest : List Char,
      Run (fun c => c != ' ') operator.toList (' ' :: rest) := by
    have visible : ∀ operator ∈ binaryOperators,
        operator.toList.all (fun c => c != ' ') = true := by decide
    refine fun operator member rest =>
      ⟨List.all_eq_true.1 (visible operator member), fun c hc => ?_⟩
    cases hc
    rfl
  obtain ⟨texts, later⟩ := (run operator h text).unique (run other hother more) same
  exact ⟨String.toList_inj.1 texts, (List.cons.inj later).2⟩

def Stmt.behind (stmt : Stmt) : Program → List Char → List Char
  | [], rest => rest
  | next :: later, rest =>
    (if stmt.needsTerminator then [';', ' '] else [' ']) ++
      (Program.chars (next :: later) ++ rest)

theorem Program.chars_cons_append (stmt : Stmt) (program : Program) (rest : List Char) :
    Program.chars (stmt :: program) ++ rest = stmt.chars ++ stmt.behind program rest := by
  cases program with
  | nil => rfl
  | cons next later => rw [Program.chars]; simp [Stmt.behind]

section

variable [Alphabet]

/-- What may stand behind an expression: no part of a word, also not behind a blank. -/
structure Closes (rest : List Char) : Prop where
  apart : Apart rest
  behind : ∀ more, rest = ' ' :: more → Apart more

theorem closes_nil : Closes [] := ⟨apart_nil, nofun⟩

theorem closes_mark {c : Char} (mark : isMark c = true) (visible : c ≠ ' ')
    (rest : List Char) : Closes (c :: rest) :=
  ⟨apart_mark mark rest, fun _ same => absurd (List.cons.inj same).1 visible⟩

theorem closes_blank {rest : List Char} (apart : Apart rest) : Closes (' ' :: rest) :=
  ⟨apart_mark (by decide) rest, fun _ same => (List.cons.inj same).2 ▸ apart⟩

theorem Closes.spine {rest : List Char} (h : Closes rest) (lists : List (List Expr)) :
    Closes (spineChars lists ++ rest) := by
  cases lists with
  | nil => exact h
  | cons arguments lists => exact closes_mark (by decide) (by decide) _

/-- What may stand behind an expression that is no callee there. -/
structure Finishes (rest : List Char) : Prop extends Closes rest where
  free : rest.head? ≠ some '('

theorem finishes_mark {c : Char} (mark : isMark c = true ∧ c ≠ ' ' ∧ c ≠ '(')
    (rest : List Char) : Finishes (c :: rest) :=
  ⟨closes_mark mark.1 mark.2.1 rest, by simpa using mark.2.2⟩

theorem finishes_blank {rest : List Char} (apart : Apart rest) : Finishes (' ' :: rest) :=
  ⟨closes_blank apart, by simp⟩

/-- An expression is read off its text, but for argument lists that the text may go on with. -/
def Expr.Reads (value : Expr) : Prop :=
  ∀ (other : Expr) (rest beyond : List Char), other.legible = true → Closes rest → Closes beyond →
    value.chars ++ rest = other.chars ++ beyond →
    (∃ lists, other = value.calledWith lists ∧ rest = spineChars lists ++ beyond) ∨
      ∃ lists, value = other.calledWith lists ∧ beyond = spineChars lists ++ rest

def Stmt.Reads (stmt : Stmt) : Prop :=
  ∀ (other : Stmt) (rest beyond : List Char), other.legible = true →
    (stmt.needsTerminator = true → Finishes rest) →
    (other.needsTerminator = true → Finishes beyond) →
    stmt.chars ++ rest = other.chars ++ beyond → stmt = other ∧ rest = beyond

/-- What may stand behind the statements of a program or of a block. -/
def EndsStatements (rest : List Char) : Prop := rest = [] ∨ ∃ more, rest = ' ' :: '}' :: more

def Program.Reads (program : Program) : Prop :=
  ∀ (other : Program) (rest beyond : List Char), Program.legible other = true →
    EndsStatements rest → EndsStatements beyond →
    Program.chars program ++ rest = Program.chars other ++ beyond →
    program = other ∧ rest = beyond

namespace Expr

variable {value other : Expr} {rest beyond : List Char}

theorem opening_unique (legible : value.legible = true) (legibleOther : other.legible = true)
    (apart : Apart rest) (apartBeyond : Apart beyond)
    (same : value.chars ++ rest = other.chars ++ beyond) : value.opening = other.opening := by
  rw [← leadingKind_chars apart value legible, same,
    leadingKind_chars apartBeyond other legibleOther]

theorem Reads.unique (h : value.Reads) (legible : other.legible = true) (finishes : Finishes rest)
    (finishesBeyond : Finishes beyond) (same : value.chars ++ rest = other.chars ++ beyond) :
    value = other ∧ rest = beyond := by
  rcases h other rest beyond legible finishes.toCloses finishesBeyond.toCloses same with
    ⟨lists, rfl, rfl⟩ | ⟨lists, rfl, rfl⟩
  · cases lists with
    | nil => exact ⟨rfl, rfl⟩
    | cons arguments lists => exact absurd rfl finishes.free
  · cases lists with
    | nil => exact ⟨rfl, rfl⟩
    | cons arguments lists => exact absurd rfl finishesBeyond.free

theorem Reads.unique_mark {c : Char} (h : value.Reads) (legible : other.legible = true)
    (mark : isMark c = true ∧ c ≠ ' ' ∧ c ≠ '(')
    (same : value.chars ++ c :: rest = other.chars ++ c :: beyond) :
    value = other ∧ rest = beyond := by
  obtain ⟨rfl, later⟩ := h.unique legible (finishes_mark mark rest) (finishes_mark mark beyond) same
  exact ⟨rfl, (List.cons.inj later).2⟩

theorem Reads.of_flat (legible : value.legible = true)
    (h : ∀ other rest beyond, other.calls = 0 → other.legible = true →
      value.opening = other.opening → Closes rest → Closes beyond →
      value.chars ++ rest = other.chars ++ beyond → value = other ∧ rest = beyond) :
    value.Reads := by
  intro other rest beyond legibleOther closes closesBeyond same
  obtain ⟨callee, lists, rfl, flat⟩ := other.exists_calledWith
  rw [chars_calledWith_append] at same
  rw [legible_calledWith] at legibleOther
  have closesSpine := closesBeyond.spine lists
  have opening := opening_unique legible legibleOther.1 closes.apart closesSpine.apart same
  obtain ⟨rfl, rfl⟩ := h callee rest _ flat legibleOther.1 opening closes closesSpine same
  exact .inl ⟨lists, rfl, rfl⟩

end Expr

section Forms

variable {rest beyond : List Char}

theorem reads_identifier {name : String} (h : isName name = true) :
    (Expr.identifier name).Reads := by
  refine .of_flat h fun other rest beyond flat legible opening closes closesBeyond same => ?_
  cases other with
  | identifier other =>
    obtain ⟨rfl, later⟩ := name_unique h legible closes.apart closesBeyond.apart same
    exact ⟨rfl, later⟩
  | _ => grind [Expr.opening, Expr.calls]

theorem reads_integer (value : Int64) : (Expr.integer value).Reads := by
  refine .of_flat rfl fun other rest beyond flat legible opening closes closesBeyond same => ?_
  cases other with
  | integer other =>
    have texts : (Expr.integer value).chars = (Expr.integer other).chars ∧ rest = beyond := by
      rcases integer_chars value with ⟨dash, text⟩ | ⟨number, text⟩
      · obtain ⟨-, moreText⟩ : _ ∧ _ :=
          (integer_chars other).resolve_right (by simp [← opening, dash])
        rw [text, moreText] at same ⊢
        obtain ⟨digits, later⟩ := toDigits_unique closes.apart closesBeyond.apart
          (List.cons.inj same).2
        exact ⟨congrArg _ digits, later⟩
      · obtain ⟨-, moreText⟩ : _ ∧ _ :=
          (integer_chars other).resolve_left (by simp [← opening, number])
        rw [text, moreText] at same ⊢
        exact toDigits_unique closes.apart closesBeyond.apart same
    exact ⟨congrArg _ (Integer.writeChars_inj texts.1), texts.2⟩
  | _ => grind [Expr.opening, Expr.calls]

theorem reads_boolean (value : Bool) : (Expr.boolean value).Reads := by
  refine .of_flat rfl fun other rest beyond flat legible opening closes closesBeyond same => ?_
  cases other with
  | boolean other =>
    obtain rfl : value = other := by grind [Expr.opening]
    exact ⟨rfl, List.append_cancel_left same⟩
  | _ => grind [Expr.opening, Expr.calls]

end Forms

section Calls

variable {value callee : Expr} {arguments others : List Expr} {rest beyond : List Char}

theorem StopsItem.finishes (h : StopsItem rest) : Finishes rest := by
  rcases h with comma | bracket
  · obtain ⟨more, rfl⟩ := List.head?_eq_some_iff.1 comma
    exact finishes_mark (by decide) more
  · obtain ⟨more, rfl⟩ := List.head?_eq_some_iff.1 bracket
    exact finishes_mark (by decide) more

theorem arguments_unique (reads : ∀ value ∈ arguments, value.Reads)
    (legible : ∀ value ∈ arguments, value.legible = true)
    (legibleOthers : ∀ value ∈ others, value.legible = true)
    (same : argumentChars arguments ++ rest = argumentChars others ++ beyond) :
    arguments = others ∧ rest = beyond := by
  simp only [argumentChars, List.append_assoc, List.cons_append, List.nil_append, List.cons.injEq,
    true_and] at same
  refine commaSeparated_unique ?_ ?_ same
  · intro value member other memberOther rest beyond stops stopsBeyond
    exact (reads value member).unique (legibleOthers other memberOther) stops.finishes
      stopsBeyond.finishes
  · intro value member rest stops
    have legible : value.legible = true := member.elim (legible value) (legibleOthers value)
    refine Expr.head?_chars_ne legible stops.finishes.apart fun more => ?_
    rw [leadingKind_mark rfl (by decide) more]
    decide

theorem Expr.Reads.call (reads : callee.Reads) (readsEach : ∀ value ∈ arguments, value.Reads)
    (legible : ∀ value ∈ arguments, value.legible = true) :
    (Expr.call callee arguments).Reads := by
  intro other rest beyond legibleOther closes closesBeyond same
  rw [Expr.call_chars_append] at same
  have closesCall : Closes (argumentChars arguments ++ rest) :=
    closes_mark (by decide) (by decide) _
  rcases reads other _ beyond legibleOther closesCall closesBeyond same with
    ⟨lists, rfl, later⟩ | ⟨lists, rfl, later⟩
  · cases lists with
    | nil => exact .inr ⟨[arguments], rfl, by simpa [spineChars] using later.symm⟩
    | cons others lists =>
      rw [Expr.legible_calledWith, List.forall_mem_cons] at legibleOther
      rw [spineChars, List.flatMap_cons, List.append_assoc] at later
      obtain ⟨rfl, last⟩ := arguments_unique readsEach legible legibleOther.2.1 later
      exact .inl ⟨lists, rfl, last⟩
  · refine .inr ⟨lists ++ [arguments], Expr.calledWith_append_singleton.symm, ?_⟩
    simp [later, spineChars]

end Calls

section Brackets

variable {value : Expr} {rest beyond : List Char}

theorem Expr.Reads.spine_unique {callee : Expr} {lists others : List (List Expr)}
    (reads : (callee.calledWith lists).Reads)
    (legible : (callee.calledWith others).legible = true) (finishes : Finishes rest)
    (finishesBeyond : Finishes beyond)
    (same : spineChars lists ++ rest = spineChars others ++ beyond) : rest = beyond := by
  refine (reads.unique legible finishes finishesBeyond ?_).2
  rw [Expr.chars_calledWith_append, Expr.chars_calledWith_append, same]

theorem finishes_binaryOperator {operator : String} (h : operator ∈ binaryOperators)
    (rest : List Char) : Finishes (' ' :: (operator.toList ++ rest)) := by
  have marks : ∀ operator ∈ binaryOperators, operator.toList.head?.any isMark = true := by decide
  obtain ⟨c, cs, text, mark⟩ := exists_cons_of_start (marks operator h)
  rw [text]
  exact finishes_blank (apart_mark mark (cs ++ rest))

/-- A minus sign belongs to an integer or stands before an operand. With the same argument lists
behind the digits the two texts end together. -/
theorem minus_chars_ne {operand left : Expr} (legible : operand.legible = true)
    (legibleLeft : left.legible = true) (reads : operand.Reads ∨ left.Reads)
    (finishes : Finishes rest) (finishesBeyond : Finishes beyond) (apart : rest ≠ beyond) :
    '-' :: (operand.chars ++ rest) ≠ left.chars ++ beyond := by
  intro same
  have dash : left.opening = .dash := by
    rw [← Expr.leadingKind_chars finishesBeyond.apart left legibleLeft, ← same]
    exact leadingKind_mark rfl (by decide) _
  obtain ⟨one, lists, rfl⟩ := exists_integer (.inl dash)
  rw [opening_calledWith] at dash
  obtain ⟨-, digits⟩ : _ ∧ _ := (integer_chars one).resolve_right (by simp [dash])
  rw [Expr.chars_calledWith_append, digits] at same
  replace same : operand.chars ++ rest =
      Nat.toDigits 10 one.toInt.natAbs ++ (spineChars lists ++ beyond) := (List.cons.inj same).2
  have number : operand.opening = .number := by
    rw [← Expr.leadingKind_chars finishes.apart operand legible, same]
    exact leadingKind_digits _ (finishesBeyond.toCloses.spine lists).apart
  obtain ⟨two, others, rfl⟩ := exists_integer (.inr number)
  rw [opening_calledWith] at number
  obtain ⟨-, moreDigits⟩ : _ ∧ _ := (integer_chars two).resolve_left (by simp [number])
  rw [Expr.chars_calledWith_append, moreDigits] at same
  obtain ⟨-, spines⟩ := toDigits_unique (finishes.toCloses.spine others).apart
    (finishesBeyond.toCloses.spine lists).apart same
  rw [Expr.legible_calledWith] at legible legibleLeft
  -- Either side has the arguments of the other behind a callee of its own.
  rcases reads with reads | reads
  · exact apart (reads.spine_unique (Expr.legible_calledWith.2 ⟨rfl, legibleLeft.2⟩) finishes
      finishesBeyond spines)
  · exact apart (reads.spine_unique (Expr.legible_calledWith.2 ⟨rfl, legible.2⟩) finishesBeyond
      finishes spines.symm).symm

/-- A negation and an operation on a negative integer part at the end of the first operand. -/
theorem unary_chars_ne_binary {operator sign : String} {operand left right : Expr}
    (hunary : operator ∈ unaryOperators) (hbinary : sign ∈ binaryOperators)
    (legible : operand.legible = true) (legibleLeft : left.legible = true)
    (reads : operand.Reads ∨ left.Reads) :
    (Expr.unary operator operand).chars ++ rest ≠
      (Expr.binary left sign right).chars ++ beyond := by
  intro same
  rw [Expr.unary_chars_append, Expr.binary_chars_append, List.cons.injEq] at same
  have finishesBeyond := finishes_binaryOperator hbinary (' ' :: (right.chars ++ ')' :: beyond))
  simp only [unaryOperators, List.mem_cons, List.not_mem_nil, or_false] at hunary
  rcases hunary with rfl | rfl
  · have free := left.opening_mem
    rw [← Expr.leadingKind_chars finishesBeyond.apart left legibleLeft, ← same.2] at free
    rcases leadingKind_exclamation (operand.chars ++ ')' :: rest) with kind | kind
    · exact absurd (kind ▸ free) (by decide)
    · exact absurd (kind ▸ free) (by decide)
  · exact minus_chars_ne legible legibleLeft reads (finishes_mark (by decide) rest)
      finishesBeyond (by simp) same.2

theorem reads_unary {operator : String} {operand : Expr}
    (legible : (Expr.unary operator operand).legible = true) (reads : operand.Reads) :
    (Expr.unary operator operand).Reads := by
  refine .of_flat legible fun other rest beyond flat legibleOther opening closes _ same => ?_
  simp only [Expr.legible, Bool.and_eq_true, List.contains_iff_mem] at legible
  cases other with
  | unary sign value =>
    simp only [Expr.legible, Bool.and_eq_true, List.contains_iff_mem] at legibleOther
    rw [Expr.unary_chars_append, Expr.unary_chars_append, List.cons.injEq] at same
    obtain ⟨rfl, inner⟩ := unaryOperator_unique legible.1 legibleOther.1 same.2
    obtain ⟨rfl, later⟩ := reads.unique_mark legibleOther.2 (by decide) inner
    exact ⟨rfl, later⟩
  | binary left sign right =>
    simp only [Expr.legible, Bool.and_eq_true, List.contains_iff_mem] at legibleOther
    exact absurd same (unary_chars_ne_binary legible.1 legibleOther.1.2 legible.2
      legibleOther.1.1 (.inl reads))
  | _ => grind [Expr.opening, Expr.calls]

theorem reads_binary {left right : Expr} {operator : String}
    (legible : (Expr.binary left operator right).legible = true) (reads : left.Reads)
    (readsRight : right.Reads) : (Expr.binary left operator right).Reads := by
  refine .of_flat legible fun other rest beyond flat legibleOther opening closes _ same => ?_
  simp only [Expr.legible, Bool.and_eq_true, List.contains_iff_mem] at legible
  cases other with
  | unary sign value =>
    simp only [Expr.legible, Bool.and_eq_true, List.contains_iff_mem] at legibleOther
    exact absurd same.symm (unary_chars_ne_binary legibleOther.1 legible.1.2 legibleOther.2
      legible.1.1 (.inr reads))
  | binary value sign other =>
    simp only [Expr.legible, Bool.and_eq_true, List.contains_iff_mem] at legibleOther
    rw [Expr.binary_chars_append, Expr.binary_chars_append, List.cons.injEq] at same
    obtain ⟨rfl, signs⟩ := reads.unique legibleOther.1.1 (finishes_binaryOperator legible.1.2 _)
      (finishes_binaryOperator legibleOther.1.2 _) same.2
    obtain ⟨rfl, inner⟩ := binaryOperator_unique legible.1.2 legibleOther.1.2
      (List.cons.inj signs).2
    obtain ⟨rfl, later⟩ := readsRight.unique_mark legibleOther.2 (by decide) inner
    exact ⟨rfl, later⟩
  | _ => grind [Expr.opening, Expr.calls]

end Brackets

section Blocks

variable {value : Expr} {rest beyond : List Char}

theorem Block.chars_unique {body other : Block} (reads : Program.Reads body)
    (legible : Program.legible other = true)
    (same : Block.chars body ++ rest = Block.chars other ++ beyond) :
    body = other ∧ rest = beyond := by
  cases body with
  | nil =>
    cases other with
    | nil => simpa [Block.chars] using same
    | cons stmt stmts => simp [Block.chars] at same
  | cons stmt stmts =>
    cases other with
    | nil => simp [Block.chars] at same
    | cons otherStmt otherStmts =>
      rw [Block.chars_cons, Block.chars_cons] at same
      simp only [List.append_assoc, List.cons_append, List.nil_append, List.cons.injEq,
        true_and] at same
      obtain ⟨whole, later⟩ := reads _ _ _ legible (.inr ⟨rest, rfl⟩) (.inr ⟨beyond, rfl⟩) same
      simp only [List.cons.injEq, true_and] at later
      exact ⟨whole, later⟩

theorem Block.elseChars_unique {alternative other : Option Block}
    (reads : ∀ body, alternative = some body → Program.Reads body)
    (legible : Block.legibleElse other = true) (closes : Closes rest) (closesBeyond : Closes beyond)
    (same : Block.elseChars alternative ++ rest = Block.elseChars other ++ beyond) :
    alternative = other ∧ rest = beyond := by
  have word : ¬ isWordPart 'e' = false := by
    rw [isWordPart_of_ascii (by decide)]
    decide
  cases alternative with
  | none =>
    cases other with
    | none => exact ⟨rfl, same⟩
    | some body => exact absurd (closes.behind _ same) word
  | some body =>
    cases other with
    | none => exact absurd (closesBeyond.behind _ same.symm) word
    | some otherBody =>
      simp only [Block.elseChars, List.append_assoc] at same
      obtain ⟨rfl, later⟩ := Block.chars_unique (reads body rfl) legible
        (List.append_cancel_left same)
      exact ⟨rfl, later⟩

theorem parameters_unique {names others : List String} (h : names.all isName = true)
    (hothers : others.all isName = true)
    (same : commaSeparated (names.map String.toList) ++ ')' :: rest =
      commaSeparated (others.map String.toList) ++ ')' :: beyond) :
    names = others ∧ rest = beyond := by
  have text (names : List String) (rest : List Char) :
      argumentChars (names.map Expr.identifier) ++ rest =
        '(' :: (commaSeparated (names.map String.toList) ++ ')' :: rest) := by
    simp [argumentChars, Function.comp_def, Expr.chars]
  have reads : ∀ value ∈ names.map Expr.identifier, value.Reads :=
    List.forall_mem_map.2 fun name member =>
      reads_identifier (List.all_eq_true.1 h name member)
  obtain ⟨values, later⟩ := arguments_unique reads
    (List.forall_mem_map.2 (List.all_eq_true.1 h))
    (List.forall_mem_map.2 (List.all_eq_true.1 hothers))
    ((text names rest).trans ((congrArg _ same).trans (text others beyond).symm))
  refine ⟨List.map_inj_right ?_ |>.1 values, later⟩
  exact fun _ _ => Expr.identifier.inj

theorem reads_conditional {condition : Expr} {consequence : Block} {alternative : Option Block}
    (legible : (Expr.conditional condition consequence alternative).legible = true)
    (reads : condition.Reads) (readsThen : Program.Reads consequence)
    (readsElse : ∀ body, alternative = some body → Program.Reads body) :
    (Expr.conditional condition consequence alternative).Reads := by
  refine .of_flat legible fun other rest beyond flat legibleOther opening closes closesBeyond
    same => ?_
  cases other with
  | conditional test first second =>
    simp only [Expr.legible, Bool.and_eq_true] at legibleOther
    rw [Expr.conditional_chars_append, Expr.conditional_chars_append] at same
    replace same := List.append_cancel_left same
    simp only [List.cons.injEq, true_and] at same
    obtain ⟨rfl, blocks⟩ := reads.unique_mark legibleOther.1.1 (by decide) same
    obtain ⟨rfl, branches⟩ := Block.chars_unique readsThen legibleOther.1.2
      (List.cons.inj blocks).2
    obtain ⟨rfl, later⟩ := Block.elseChars_unique readsElse legibleOther.2 closes closesBeyond
      branches
    exact ⟨rfl, later⟩
  | _ => grind [Expr.opening, Expr.calls]

theorem reads_function {parameters : List String} {body : Block}
    (legible : (Expr.function parameters body).legible = true) (reads : Program.Reads body) :
    (Expr.function parameters body).Reads := by
  refine .of_flat legible fun other rest beyond flat legibleOther opening closes closesBeyond
    same => ?_
  cases other with
  | function names otherBody =>
    simp only [Expr.legible, Bool.and_eq_true] at legible legibleOther
    rw [Expr.function_chars_append, Expr.function_chars_append] at same
    obtain ⟨rfl, inner⟩ := parameters_unique legible.1 legibleOther.1
      (List.cons.inj (List.append_cancel_left same)).2
    obtain ⟨rfl, later⟩ := Block.chars_unique reads legibleOther.2 (List.cons.inj inner).2
    exact ⟨rfl, later⟩
  | _ => grind [Expr.opening, Expr.calls]

end Blocks

section Statements

variable {stmt other : Stmt} {rest beyond : List Char}

theorem Stmt.Reads.of_opening
    (legible : stmt.legible = true)
    (h : ∀ other rest beyond, other.legible = true → stmt.opening = other.opening →
      (stmt.needsTerminator = true → Finishes rest) →
      (other.needsTerminator = true → Finishes beyond) →
      stmt.chars ++ rest = other.chars ++ beyond → stmt = other ∧ rest = beyond) :
    stmt.Reads := by
  intro other rest beyond legibleOther follows followsBeyond same
  refine h other rest beyond legibleOther ?_ follows followsBeyond same
  rw [← Stmt.leadingKind_chars legible fun needs => (follows needs).apart, same,
    Stmt.leadingKind_chars legibleOther fun needs => (followsBeyond needs).apart]

theorem reads_let {name : String} {value : Expr}
    (legible : (Stmt.letBinding name value).legible = true) (reads : value.Reads) :
    (Stmt.letBinding name value).Reads := by
  refine .of_opening legible fun other rest beyond legibleOther opening _ _ same => ?_
  cases other with
  | letBinding otherName otherValue =>
    simp only [Stmt.legible, Bool.and_eq_true] at legible legibleOther
    rw [Stmt.let_chars_append, Stmt.let_chars_append] at same
    obtain ⟨rfl, assigned⟩ := name_unique legible.1 legibleOther.1
      (apart_mark (by decide) _) (apart_mark (by decide) _)
      (List.cons.inj (List.append_cancel_left same)).2
    simp only [List.cons.injEq, true_and] at assigned
    obtain ⟨rfl, later⟩ := reads.unique_mark legibleOther.2 (by decide) assigned
    exact ⟨rfl, later⟩
  | expression other => exact absurd opening.symm other.opening_ne.1
  | _ => cases opening

theorem reads_return {value : Expr} (legible : value.legible = true) (reads : value.Reads) :
    (Stmt.returning value).Reads := by
  refine .of_opening legible fun other rest beyond legibleOther opening _ _ same => ?_
  cases other with
  | returning other =>
    rw [Stmt.return_chars_append, Stmt.return_chars_append] at same
    obtain ⟨rfl, later⟩ := reads.unique_mark legibleOther (by decide)
      (List.cons.inj (List.append_cancel_left same)).2
    exact ⟨rfl, later⟩
  | expression other => exact absurd opening.symm other.opening_ne.2.1
  | _ => cases opening

theorem reads_expression {value : Expr} (legible : value.legible = true) (reads : value.Reads) :
    (Stmt.expression value).Reads := by
  refine .of_opening legible fun other rest beyond legibleOther opening follows followsBeyond
    same => ?_
  cases other with
  | expression other =>
    obtain ⟨rfl, later⟩ := reads.unique legibleOther (follows rfl) (followsBeyond rfl) same
    exact ⟨rfl, later⟩
  | letBinding _ _ => exact absurd opening value.opening_ne.1
  | returning _ => exact absurd opening value.opening_ne.2.1
  | block _ => exact absurd opening value.opening_ne.2.2

theorem reads_block {body : Block} (legible : Program.legible body = true)
    (reads : Program.Reads body) : (Stmt.block body).Reads := by
  refine .of_opening legible fun other rest beyond legibleOther opening _ _ same => ?_
  cases other with
  | block other =>
    obtain ⟨rfl, later⟩ := Block.chars_unique reads legibleOther same
    exact ⟨rfl, later⟩
  | expression other => exact absurd opening.symm other.opening_ne.2.2
  | _ => cases opening

end Statements

section Programs

variable {stmt other : Stmt} {program : Program} {rest beyond : List Char}

theorem EndsStatements.finishes (h : EndsStatements rest) : Finishes rest := by
  rcases h with rfl | ⟨more, rfl⟩
  · exact ⟨closes_nil, nofun⟩
  · exact finishes_blank (apart_mark (by decide) more)

theorem EndsStatements.leadingKind_not_mem (h : EndsStatements rest) :
    leadingKind rest ∉ Stmt.openingKinds := by
  rcases h with rfl | ⟨more, rfl⟩
  · rw [leadingKind_nil]
    decide
  · rw [leadingKind_blank]
    decide

theorem Stmt.finishes_behind (h : EndsStatements rest) (needs : stmt.needsTerminator = true) :
    Finishes (stmt.behind program rest) := by
  cases program with
  | nil => exact h.finishes
  | cons next later =>
    rw [Stmt.behind, if_pos needs]
    exact finishes_mark (by decide) _

theorem Program.leadingKind_chars (program : Program) (legible : stmt.legible = true)
    (h : EndsStatements rest) :
    leadingKind (Program.chars (stmt :: program) ++ rest) = stmt.opening := by
  rw [Program.chars_cons_append]
  exact Stmt.leadingKind_chars legible fun needs => (Stmt.finishes_behind h needs).apart

theorem Program.chars_cons_ne (legible : stmt.legible = true) (h : EndsStatements rest)
    (hbeyond : EndsStatements beyond) : Program.chars (stmt :: program) ++ rest ≠ beyond := by
  intro same
  have kind := Program.leadingKind_chars program legible h
  rw [same] at kind
  exact hbeyond.leadingKind_not_mem (kind ▸ stmt.opening_mem)

theorem reads_nil : Program.Reads [] := by
  intro other rest beyond legible ends endsBeyond same
  cases other with
  | nil => exact ⟨rfl, same⟩
  | cons stmt program =>
    rw [Program.legible, Bool.and_eq_true] at legible
    exact absurd same.symm (Program.chars_cons_ne legible.1 endsBeyond ends)

theorem Stmt.behind_cons_ne {next : Stmt} (legible : next.legible = true)
    (h : EndsStatements rest) (hbeyond : EndsStatements beyond) :
    stmt.behind (next :: program) rest ≠ beyond := by
  have kind := Program.leadingKind_chars program legible h
  intro same
  rw [Stmt.behind] at same
  split at same
  · rcases hbeyond with rfl | ⟨more, rfl⟩ <;> simp at same
  · rcases hbeyond with rfl | ⟨more, rfl⟩
    · simp at same
    · replace same : Program.chars (next :: program) ++ rest = '}' :: more :=
        (List.cons.inj same).2
      rw [same, leadingKind_mark rfl (by decide)] at kind
      exact absurd (kind ▸ next.opening_mem) (by decide)

theorem reads_cons (reads : stmt.Reads) (readsLater : Program.Reads program)
    (legible : Program.legible (stmt :: program) = true) : Program.Reads (stmt :: program) := by
  intro other rest beyond legibleOther ends endsBeyond same
  rw [Program.legible, Bool.and_eq_true] at legible
  cases other with
  | nil => exact absurd same (Program.chars_cons_ne legible.1 ends endsBeyond)
  | cons otherStmt otherProgram =>
    rw [Program.legible, Bool.and_eq_true] at legibleOther
    rw [Program.chars_cons_append, Program.chars_cons_append] at same
    obtain ⟨rfl, later⟩ := reads otherStmt _ _ legibleOther.1 (Stmt.finishes_behind ends)
      (Stmt.finishes_behind endsBeyond) same
    cases program with
    | nil =>
      cases otherProgram with
      | nil => exact ⟨rfl, later⟩
      | cons next otherLater =>
        rw [Program.legible, Bool.and_eq_true] at legibleOther
        exact absurd later.symm (Stmt.behind_cons_ne legibleOther.2.1 endsBeyond ends)
    | cons next program =>
      cases otherProgram with
      | nil =>
        rw [Program.legible, Bool.and_eq_true] at legible
        exact absurd later (Stmt.behind_cons_ne legible.2.1 ends endsBeyond)
      | cons otherNext otherLater =>
        rw [Stmt.behind, Stmt.behind] at later
        obtain ⟨same, last⟩ := readsLater _ _ _ legibleOther.2 ends endsBeyond
          (List.append_cancel_left later)
        exact ⟨congrArg _ same, last⟩

end Programs

mutual

theorem Expr.reads : ∀ value : Expr, value.legible = true → value.Reads
  | .identifier _, h => reads_identifier h
  | .integer value, _ => reads_integer value
  | .boolean value, _ => reads_boolean value
  | .unary operator operand, h => by
    have parts := h
    rw [Expr.legible, Bool.and_eq_true] at parts
    exact reads_unary h (Expr.reads operand parts.2)
  | .binary left operator right, h => by
    have parts := h
    rw [Expr.legible, Bool.and_eq_true, Bool.and_eq_true] at parts
    exact reads_binary h (Expr.reads left parts.1.1) (Expr.reads right parts.2)
  | .conditional condition consequence alternative, h => by
    have parts := h
    rw [Expr.legible, Bool.and_eq_true, Bool.and_eq_true] at parts
    exact reads_conditional h (Expr.reads condition parts.1.1)
      (Program.reads consequence parts.1.2) (Block.readsElse alternative parts.2)
  | .function parameters body, h => by
    have parts := h
    rw [Expr.legible, Bool.and_eq_true] at parts
    exact reads_function h (Program.reads body parts.2)
  | .call callee arguments, h => by
    rw [Expr.legible, Bool.and_eq_true] at h
    exact (Expr.reads callee h.1).call (Expr.readsEach arguments h.2)
      ((Expr.legibleEach_iff arguments).1 h.2)

theorem Expr.readsEach : ∀ values : List Expr, Expr.legibleEach values = true →
    ∀ value ∈ values, value.Reads
  | [], _ => List.forall_mem_nil _
  | value :: values, h => by
    rw [Expr.legibleEach, Bool.and_eq_true] at h
    exact List.forall_mem_cons.2 ⟨Expr.reads value h.1, Expr.readsEach values h.2⟩

theorem Stmt.reads : ∀ stmt : Stmt, stmt.legible = true → stmt.Reads
  | .letBinding name value, h => by
    have parts := h
    rw [Stmt.legible, Bool.and_eq_true] at parts
    exact reads_let h (Expr.reads value parts.2)
  | .returning value, h => reads_return h (Expr.reads value h)
  | .expression value, h => reads_expression h (Expr.reads value h)
  | .block body, h => reads_block h (Program.reads body h)

theorem Program.reads : ∀ program : List Stmt, Program.legible program = true →
    Program.Reads program
  | [], _ => reads_nil
  | stmt :: program, h => by
    have parts := h
    rw [Program.legible, Bool.and_eq_true] at parts
    exact reads_cons (Stmt.reads stmt parts.1) (Program.reads program parts.2) h

theorem Block.readsElse : ∀ alternative : Option (List Stmt),
    Block.legibleElse alternative = true → ∀ body, alternative = some body → Program.Reads body
  | none, _ => nofun
  | some body, h => by
    rintro _ ⟨⟩
    exact Program.reads body h

end

/-- The canonical text of a program loses nothing of it. -/
theorem text_eq_iff {program other : Program} (legible : Program.legible program = true)
    (legibleOther : Program.legible other = true) :
    Program.text program = Program.text other ↔ program = other := by
  refine ⟨fun same => ?_, congrArg Program.text⟩
  have chars := String.ofList_inj.1 same
  refine (Program.reads program legible other [] [] legibleOther (.inl rfl) (.inl rfl) ?_).1
  rw [List.append_nil, List.append_nil, chars]

end

def signedCallee : Program :=
  [.block [.expression (.binary (.call (.integer (-5)) [.identifier "x"]) "+" (.integer 1))]]

def negatedCall : Program :=
  [.block [.expression (.unary "-" (.call (.integer 5) [.identifier "x"]))]]

theorem text_eq_iff_signs :
    Program.legible signedCallee = true ∧ Program.legible negatedCall = true ∧
      (Program.text signedCallee = Program.text negatedCall ↔ signedCallee = negatedCall) ∧
      signedCallee ≠ negatedCall := by
  have legible : Program.legible signedCallee = true := by decide +kernel
  have legibleOther : Program.legible negatedCall = true := by decide +kernel
  exact ⟨legible, legibleOther, text_eq_iff legible legibleOther, by decide +kernel⟩

end Monkey
