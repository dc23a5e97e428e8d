import Monkey.Parser
import Monkey.Proofs.Completeness

set_option autoImplicit false

/-!
# Chains of operators

A chain is divided at its weakest operator, the last one if several are equally weak, and both sides
in the same way. The parser never looks for the weakest operator, but builds the same tree.
-/
namespace Monkey

open Parse

/-- An operator with the atom behind it. -/
structure Link where
  operator : Token
  atom : Token
  deriving DecidableEq, Repr

def Link.tokens (link : Link) : List Token := [link.operator, link.atom]

def Token.leaf (token : Token) : Expr :=
  match token.kind with
  | .trueKeyword => .boolean true
  | .falseKeyword => .boolean false
  | .number => .integer ((Integer.read? token.literal).getD 0)
  | _ => .identifier token.literal

structure Tables.Atom (tables : Tables) (token : Token) : Prop where
  form : tables.operand token.kind = some .primary
  kind : token.kind ∈ OperandForm.primary.kinds
  readable : token.kind = .number → (Integer.read? token.literal).isSome = true

structure Tables.Linked (tables : Tables) (link : Link) : Prop where
  form : tables.operator link.operator.kind = some .binary
  atom : tables.Atom link.atom

def Link.power (tables : Tables) (link : Link) : BindingPower := tables.power link.operator.kind

def Link.above (tables : Tables) (power : BindingPower) (link : Link) : Bool :=
  power < link.power tables

section Trees

variable (tables : Tables)

/-- The links in front of the weakest operator of a chain, its link, and the links behind it. -/
def splitWeakest : Link → List Link → List Link × Link × List Link
  | link, [] => ([], link, [])
  | link, next :: links =>
    let later := splitWeakest next links
    if link.power tables < later.2.1.power tables then ([], link, next :: links)
    else (link :: later.1, later.2)

theorem splitWeakest_append (link : Link) (links : List Link) :
    (splitWeakest tables link links).1 ++ (splitWeakest tables link links).2.1 ::
      (splitWeakest tables link links).2.2 = link :: links := by
  induction links generalizing link with
  | nil => rfl
  | cons next links ih =>
    rw [splitWeakest]
    split
    · rfl
    · rw [List.cons_append, ih]

theorem splitWeakest_length (link : Link) (links : List Link) :
    (splitWeakest tables link links).1.length + (splitWeakest tables link links).2.2.length =
      links.length := by
  have whole := congrArg List.length (splitWeakest_append tables link links)
  simp only [List.length_append, List.length_cons] at whole
  omega

/-- The tree of a chain that begins with a certain expression. -/
def chainTree (first : Expr) : List Link → Expr
  | [] => first
  | link :: links =>
    let cut := splitWeakest tables link links
    .binary (chainTree first cut.1) cut.2.1.operator.literal
      (chainTree cut.2.1.atom.leaf cut.2.2)
termination_by links => links.length
decreasing_by
  all_goals
    have whole := splitWeakest_length tables link links
    simp only [List.length_cons]
    omega

theorem chainTree_nil (first : Expr) : chainTree tables first [] = first := by
  rw [chainTree]

/-- The place of the weakest operator: none is weaker, and those behind it are stronger. -/
structure Weakest (front : List Link) (link : Link) (back : List Link) : Prop where
  least : ∀ other ∈ front, ¬ other.power tables < link.power tables
  last : ∀ other ∈ back, link.power tables < other.power tables

theorem weakest_splitWeakest (link : Link) (links : List Link) :
    Weakest tables (splitWeakest tables link links).1 (splitWeakest tables link links).2.1
      (splitWeakest tables link links).2.2 := by
  induction links generalizing link with
  | nil => exact ⟨List.forall_mem_nil _, List.forall_mem_nil _⟩
  | cons next links ih =>
    have later := ih next
    have whole := splitWeakest_append tables next links
    rw [splitWeakest]
    split
    · rename_i weaker
      refine ⟨List.forall_mem_nil _, ?_⟩
      rw [← whole]
      intro other member
      rcases List.mem_append.1 member with front | rest
      · exact Nat.lt_of_lt_of_le weaker (Nat.le_of_not_lt (later.least other front))
      · rcases List.mem_cons.1 rest with rfl | back
        · exact weaker
        · exact Nat.lt_trans weaker (later.last other back)
    · rename_i stronger
      exact ⟨List.forall_mem_cons.2 ⟨stronger, later.least⟩, later.last⟩

variable {tables}

variable (tables) in
theorem exists_weakest {links : List Link} (nonempty : links ≠ []) :
    ∃ front weak back, links = front ++ weak :: back ∧ Weakest tables front weak back := by
  obtain ⟨link, links, rfl⟩ := List.exists_cons_of_ne_nil nonempty
  exact ⟨_, _, _, (splitWeakest_append tables link links).symm,
    weakest_splitWeakest tables link links⟩

theorem Weakest.not_lt {front back : List Link} {link next : Link}
    (h : Weakest tables front link back) (weaker : ¬ link.power tables < next.power tables) :
    ∀ other ∈ front ++ link :: back, ¬ other.power tables < next.power tables := by
  intro other member
  simp only [BindingPower.lt_iff] at weaker ⊢
  rcases List.mem_append.1 member with before | later
  · have least := h.least other before
    simp only [BindingPower.lt_iff] at least
    omega
  · rcases List.mem_cons.1 later with rfl | behind
    · exact weaker
    · have last := h.last other behind
      simp only [BindingPower.lt_iff] at last
      omega

theorem Weakest.split_eq {front back links : List Link} {weak link : Link}
    (h : Weakest tables front weak back) (whole : front ++ weak :: back = link :: links) :
    splitWeakest tables link links = (front, weak, back) := by
  induction front generalizing link links with
  | nil =>
    obtain ⟨rfl, rfl⟩ := List.cons.inj whole
    cases back with
    | nil => rfl
    | cons next back =>
      have member : (splitWeakest tables next back).2.1 ∈ next :: back := by
        rw [← splitWeakest_append tables next back]
        simp
      rw [splitWeakest, if_pos (h.last _ member)]
  | cons first front ih =>
    obtain ⟨rfl, rest⟩ := List.cons.inj whole
    obtain ⟨next, links, rfl⟩ := List.exists_cons_of_ne_nil (l := links)
      (by rw [← rest]; simp)
    obtain ⟨stronger, least⟩ := List.forall_mem_cons.1 h.least
    rw [splitWeakest, ih ⟨least, h.last⟩ rest, if_neg stronger]

theorem Weakest.chainTree_eq {front back : List Link} {weak : Link}
    (h : Weakest tables front weak back) (first : Expr) :
    chainTree tables first (front ++ weak :: back) =
      .binary (chainTree tables first front) weak.operator.literal
        (chainTree tables weak.atom.leaf back) := by
  obtain ⟨link, links, whole⟩ := List.exists_cons_of_ne_nil (l := front ++ weak :: back)
    (by simp)
  rw [whole, chainTree, h.split_eq whole]

end Trees

def Expr.spine : Expr → Nat
  | .binary left _ _ => left.spine + 1
  | _ => 0

/-- The levels that the tree of a chain is read with. The operators of a spine stay open, so the
right side of each is read on top of it and of those below it. -/
def Expr.chainLevels : Expr → Nat
  | .binary left _ right => max left.chainLevels (left.spine + 2 + right.chainLevels)
  | _ => 1

theorem Expr.one_le_chainLevels (value : Expr) : 1 ≤ value.chainLevels := by
  cases value with
  | binary left _ right =>
    rw [Expr.chainLevels]
    omega
  | _ => exact Nat.le_refl 1

theorem Token.spine_leaf (token : Token) : token.leaf.spine = 0 := by
  unfold Token.leaf
  split <;> rfl

theorem Token.chainLevels_leaf (token : Token) : token.leaf.chainLevels = 1 := by
  unfold Token.leaf
  split <;> rfl

section Levels

variable {tables : Tables}

variable (tables) in
theorem chainLevels_append_le (first : Expr) (links more : List Link) :
    (chainTree tables first links).chainLevels ≤
      (chainTree tables first (links ++ more)).chainLevels := by
  induction hlength : (links ++ more).length using Nat.strongRecOn
    generalizing first links more with
  | ind length ih =>
    by_cases nonempty : links ++ more = []
    · obtain ⟨rfl, rfl⟩ := List.append_eq_nil_iff.1 nonempty
      exact Nat.le_refl _
    · obtain ⟨front, weak, back, whole, weakest⟩ := exists_weakest tables nonempty
      have shorter : front.length + back.length < length := by
        rw [← hlength, whole, List.length_append, List.length_cons]
        omega
      rw [whole, weakest.chainTree_eq, Expr.chainLevels]
      rcases List.append_eq_append_iff.1 whole with ⟨inner, rfl, -⟩ | ⟨inner, rfl, hback⟩
      · -- The weakest operator is one of the further ones: the whole shorter chain is on its left.
        have left := ih _ (by omega) first links inner rfl
        omega
      · cases inner with
        | nil =>
          rw [List.append_nil]
          exact Nat.le_max_left _ _
        | cons link inner =>
          -- It divides the shorter chain as well, with less on the right.
          rw [List.cons_append] at hback
          obtain ⟨rfl, rfl⟩ := List.cons.inj hback
          have right := ih _ (by omega) weak.atom.leaf inner more rfl
          have divides : Weakest tables front weak inner :=
            ⟨weakest.least, fun other member => weakest.last other (List.mem_append_left _ member)⟩
          rw [divides.chainTree_eq, Expr.chainLevels]
          omega

end Levels

def lastAtom : Token → List Link → Token
  | first, [] => first
  | _, link :: links => lastAtom link.atom links

theorem lastAtom_append (first : Token) (links more : List Link) (link : Link) :
    lastAtom first (links ++ link :: more) = lastAtom link.atom more := by
  induction links generalizing first with
  | nil => rfl
  | cons other links ih => exact ih other.atom

def chainTokens (links : List Link) : List Token := links.flatMap Link.tokens

theorem chainTokens_append (links more : List Link) :
    chainTokens (links ++ more) = chainTokens links ++ chainTokens more :=
  List.flatMap_append

theorem chainTokens_cons (link : Link) (links : List Link) :
    chainTokens (link :: links) = link.operator :: link.atom :: chainTokens links := rfl

section Reading

variable {tables : Tables} {power : BindingPower} {left below : Nat}

structure Taken (tables : Tables) (power : BindingPower) (link : Link) : Prop where
  linked : tables.Linked link
  above : power < link.power tables

theorem parseOperand_atom {level : Level} {cursor : Cursor}
    (atom : tables.Atom cursor.current) :
    parseOperand tables level cursor = .ok cursor.current.leaf cursor := by
  have primary : parseOperand tables level cursor = OperandForm.parsePrimary cursor := by
    rw [parseOperand, bind_of_ok (rfl : current cursor = _), atom.form]
    rfl
  have kind := atom.kind
  simp only [OperandForm.kinds, List.mem_cons, List.not_mem_nil, or_false] at kind
  rw [primary, OperandForm.parsePrimary, bind_of_ok (rfl : current cursor = _), Token.leaf]
  rcases kind with kind | kind | kind | kind
  · simp only [kind]
    rfl
  · obtain ⟨value, read⟩ := Option.isSome_iff_exists.1 (atom.readable kind)
    simp only [kind, read]
    rfl
  · simp only [kind]
    rfl
  · simp only [kind]
    rfl

/-- An expression that begins with an atom takes the whole chain above its power. -/
def ReadsChains (tables : Tables) (left : Nat) : Prop :=
  ∀ (power : BindingPower) (cursor : Cursor) (first : Token) (links : List Link)
    (rest : List Token), cursor.Settled → cursor.ahead = first :: (chainTokens links ++ rest) →
    tables.Atom first → (∀ link ∈ links, Taken tables power link) →
    ¬ power < tables.power (headKind rest) →
    Meets ((level tables left).expression power) cursor
      ((chainTree tables first.leaf links).chainLevels ≤ left)
      (fun result last =>
        result = chainTree tables first.leaf links ∧ last.ahead = lastAtom first links :: rest)

/-- From a chain that was read, whose tree is the left side now, the operators take the rest of it.
The levels that were there before the left side are those left, one for the operand and one for each
operator of the spine. -/
def ExtendsChains (tables : Tables) (left : Nat) : Prop :=
  ∀ (power : BindingPower) (cursor : Cursor) (first : Token) (done links : List Link)
    (rest : List Token), cursor.Settled →
    cursor.ahead = lastAtom first done :: (chainTokens links ++ rest) →
    (∀ link ∈ links, Taken tables power link) → ¬ power < tables.power (headKind rest) →
    (∀ next ∈ links.head?, ∀ link ∈ done, ¬ link.power tables < next.power tables) →
    (chainTree tables first.leaf done).chainLevels ≤
      left + 1 + (chainTree tables first.leaf done).spine →
    Meets ((level tables left).operators power (chainTree tables first.leaf done)) cursor
      ((chainTree tables first.leaf (done ++ links)).chainLevels ≤
        left + 1 + (chainTree tables first.leaf done).spine)
      (fun result last => result = chainTree tables first.leaf (done ++ links) ∧
        last.ahead = lastAtom first (done ++ links) :: rest)

theorem readsChains (h : ∀ below, left = below + 1 → ExtendsChains tables below) :
    ReadsChains tables left := by
  intro power cursor first links rest settled hahead atom taken ends
  have some := (chainTree tables first.leaf links).one_le_chainLevels
  apply meets_expression settled (by omega)
  intro below hbelow next hsettled hsame
  obtain ⟨rfl, -⟩ := Cursor.current_of_ahead (hsame.trans hahead)
  have later := h below hbelow power next next.current [] links rest hsettled
    (hsame.trans hahead) taken ends (by simp)
    (by rw [chainTree_nil, Token.chainLevels_leaf]; omega)
  rw [chainTree_nil, Token.spine_leaf, Nat.add_zero, ← hbelow] at later
  exact Meets.of_ok (parseOperand_atom atom) rfl later

variable (tables power) in
theorem above_of_mem_takeWhile (links : List Link) :
    ∀ link ∈ links.takeWhile (Link.above tables power), power < link.power tables := by
  intro link member
  simpa [Link.above] using List.all_eq_true.1 List.all_takeWhile link member

variable (tables power) in
theorem not_above_of_head_dropWhile (links : List Link) :
    ∀ next ∈ (links.dropWhile (Link.above tables power)).head?, ¬ power < next.power tables := by
  intro next member
  have refused := List.head?_dropWhile_not (Link.above tables power) links
  rw [Option.mem_def.1 member] at refused
  simpa [Link.above] using refused

theorem not_lt_headKind {links : List Link} {rest : List Token}
    (refused : ∀ next ∈ links.head?, ¬ power < next.power tables)
    (ends : ¬ power < tables.power (headKind rest)) :
    ¬ power < tables.power (headKind (chainTokens links ++ rest)) := by
  cases links with
  | nil => exact ends
  | cons next links => exact refused next rfl

theorem extendsChains (h : ∀ below, left = below + 1 →
    ReadsChains tables below ∧ ExtendsChains tables below) : ExtendsChains tables left := by
  intro power cursor first done links rest settled hahead taken ends falling room
  obtain ⟨-, hafter⟩ := Cursor.current_of_ahead hahead
  cases links with
  | nil =>
    rw [List.append_nil]
    refine (meets_operators_stop settled ?_ ⟨rfl, hahead⟩).congr (by simp [room])
    rwa [hafter]
  | cons link links =>
    obtain ⟨⟨linked, above⟩, others⟩ := List.forall_mem_cons.1 taken
    -- Its right side takes the links above its own power; the rest is left to the loop.
    obtain ⟨inner, outer, rfl, stronger, refused⟩ : ∃ inner outer, links = inner ++ outer ∧
        (∀ other ∈ inner, link.power tables < other.power tables) ∧
        ∀ next ∈ outer.head?, ¬ link.power tables < next.power tables :=
      ⟨_, _, List.takeWhile_append_dropWhile.symm, above_of_mem_takeWhile _ _ _,
        not_above_of_head_dropWhile _ _ _⟩
    have weakest : Weakest tables done link inner := ⟨falling link rfl, stronger⟩
    have whole := weakest.chainTree_eq first.leaf
    have longer := chainLevels_append_le tables first.leaf (done ++ link :: inner) outer
    have some := (chainTree tables link.atom.leaf inner).one_le_chainLevels
    rw [whole, Expr.chainLevels, List.append_assoc, List.cons_append] at longer
    simp only [chainTokens_cons, chainTokens_append, List.cons_append, List.append_assoc] at hafter
    have operator : headKind cursor.after = link.operator.kind := by rw [hafter, headKind_cons]
    refine meets_operators_go settled operator above linked.form (by omega)
      fun below hbelow next hsettled hnext => ?_
    subst hbelow
    obtain ⟨reads, continues⟩ := h below rfl
    obtain ⟨current, hnextAfter⟩ := Cursor.current_of_ahead (hnext.trans hafter)
    have right := reads (link.power tables) next.advance link.atom inner _ hsettled.advance
      (by rw [Cursor.ahead_advance, hnextAfter]) linked.atom
      (fun other member =>
        ⟨(others other (List.mem_append_left _ member)).linked, stronger other member⟩)
      (not_lt_headKind refused fun tighter => ends (Nat.lt_trans above tighter))
    rw [OperatorForm.parse, OperatorForm.parseBinary]
    simp only [bind_assoc]
    apply meets_current
    apply meets_advance
    refine (right.bind fun fits result last hlast hresult => ?_).congr
      (by omega :
        _ ∧ (chainTree tables first.leaf (done ++ link :: (inner ++ outer))).chainLevels ≤
          below + 1 + ((chainTree tables first.leaf done).spine + 1) ↔ _)
    obtain ⟨rfl, hrest⟩ := hresult
    have later := continues power last first (done ++ link :: inner) outer rest hlast
      (by rw [lastAtom_append, hrest])
      (fun other member => others other (List.mem_append_right _ member)) ends
      (fun next member => weakest.not_lt (refused next member))
      (by rw [whole, Expr.chainLevels, Expr.spine]; omega)
    rw [List.append_assoc, List.cons_append, whole] at later
    rw [pure_bind, current]
    exact later

theorem chains (tables : Tables) (left : Nat) :
    ReadsChains tables left ∧ ExtendsChains tables left := by
  induction left with
  | zero => exact ⟨readsChains nofun, extendsChains nofun⟩
  | succ below ih =>
    have same : ∀ {other}, below + 1 = other + 1 → below = other := Nat.succ.inj
    exact ⟨readsChains fun _ h => same h ▸ ih.2, extendsChains fun _ h => same h ▸ ih⟩

theorem expression_atom (below : Nat) {cursor : Cursor} (atom : tables.Atom cursor.current)
    (ends : ¬ power < tables.power (headKind cursor.after)) :
    (level tables (below + 1)).expression power cursor =
      .ok cursor.current.leaf (cursor.reach (maxNesting - below)) := by
  have operand : parseOperand tables (level tables below) (cursor.reach (maxNesting - below)) =
      .ok cursor.current.leaf (cursor.reach (maxNesting - below)) := parseOperand_atom atom
  have operators : (level tables below).operators power cursor.current.leaf
      (cursor.reach (maxNesting - below)) = .ok cursor.current.leaf _ := operators_of_not_lt ends
  exact (bind_of_ok rfl).trans ((bind_of_ok operand).trans operators)

theorem expression_chain (left : Nat) {cursor : Cursor} {first : Token} {links : List Link}
    {rest : List Token}
    (hahead : cursor.ahead = first :: (chainTokens links ++ rest)) (atom : tables.Atom first)
    (taken : ∀ link ∈ links, Taken tables power link)
    (ends : ¬ power < tables.power (headKind rest)) :
    ((chainTree tables first.leaf links).chainLevels ≤ left → ∃ last,
      (level tables left).expression power cursor =
        .ok (chainTree tables first.leaf links) last ∧
      last.ahead = lastAtom first links :: rest) ∧
    (left < (chainTree tables first.leaf links).chainLevels → ∃ last,
      (level tables left).expression power cursor = .error (.nestingTooDeep maxNesting) last) := by
  -- A cursor with one token in view need not be settled, but nothing behind it is looked at.
  by_cases alone : chainTokens links ++ rest = []
  · cases links with
    | cons link links => exact absurd alone (List.cons_ne_nil _ _)
    | nil =>
      obtain rfl : rest = [] := alone
      obtain ⟨rfl, hafter⟩ := Cursor.current_of_ahead hahead
      rw [chainTree_nil, Token.chainLevels_leaf]
      cases left with
      | zero => exact ⟨nofun, fun _ => ⟨_, rfl⟩⟩
      | succ below =>
        have run := expression_atom below atom (by rw [hafter]; exact ends)
        exact ⟨fun _ => ⟨_, run, hahead⟩, fun few => absurd few (by omega)⟩
  · obtain ⟨second, others, more⟩ := List.exists_cons_of_ne_nil alone
    have settled := Cursor.settled_of_ahead (more ▸ hahead)
    have run := (chains tables left).1 power cursor first links rest settled hahead atom taken ends
    constructor
    · intro fits
      obtain ⟨_, last, result, -, -, rfl, hlast⟩ := run.gives fits
      exact ⟨last, result, hlast⟩
    · intro few
      obtain ⟨last, result, -⟩ := run.sinks (Nat.not_le.2 few)
      exact ⟨last, result⟩

end Reading

/-- A parser with any tables reads the tree of a chain, up to the first operator that is not above
the power, and stops at the last atom of it. It needs the levels of the tree for that, and with
fewer left it nests too deep. -/
theorem parseExpression_chain {parser : Parser} {power : BindingPower} {first : Token}
    {links : List Link} {rest : List Token}
    (hahead : parser.cursor.ahead = first :: (chainTokens links ++ rest))
    (atom : parser.tables.Atom first) (linked : ∀ link ∈ links, parser.tables.Linked link)
    (ends : ¬ power < parser.tables.power (headKind rest)) :
    let taken := links.takeWhile (Link.above parser.tables power)
    let left := links.dropWhile (Link.above parser.tables power)
    let tree := chainTree parser.tables first.leaf taken
    let parsed := parser.parseExpression power
    (tree.chainLevels ≤ parser.levelsLeft ∧ parsed.1 = .ok tree ∧
        parsed.2.cursor.current = lastAtom first taken ∧
        parsed.2.cursor.after = chainTokens left ++ rest) ∨
      (parser.levelsLeft < tree.chainLevels ∧
        parsed.1 = .error (.nestingTooDeep maxNesting)) := by
  intro taken left tree parsed
  have whole : parser.cursor.ahead =
      first :: (chainTokens taken ++ (chainTokens left ++ rest)) := by
    rw [hahead, ← List.append_assoc, ← chainTokens_append, List.takeWhile_append_dropWhile]
  obtain ⟨gives, sinks⟩ := expression_chain parser.levelsLeft whole atom
    (fun link member => ⟨linked link (List.takeWhile_subset _ member),
      above_of_mem_takeWhile _ _ _ link member⟩)
    (not_lt_headKind (not_above_of_head_dropWhile _ _ _) ends)
  by_cases fits : tree.chainLevels ≤ parser.levelsLeft
  · obtain ⟨last, run, hlast⟩ := gives fits
    have result : parsed = (.ok tree, { parser with cursor := last }) := by
      simp only [parsed, Parser.parseExpression, Parser.run, run, tree, taken]
    obtain ⟨current, behind⟩ := Cursor.current_of_ahead hlast
    rw [result]
    exact .inl ⟨fits, rfl, current, behind⟩
  · obtain ⟨last, run⟩ := sinks (Nat.not_le.1 fits)
    have result : parsed =
        (.error (.nestingTooDeep maxNesting), { parser with cursor := last }) := by
      simp only [parsed, Parser.parseExpression, Parser.run, run]
    rw [result]
    exact .inr ⟨Nat.not_le.1 fits, rfl⟩

/-- A comma as strong as a plus sign and a star as weak as an equality sign: the chain is divided
at the last of its two weakest operators. -/
theorem parseExpression_chain_reweighed :
    let word (name : String) : Token := ⟨.identifier, name⟩
    let tokens := [word "a", ⟨.star, "*"⟩, word "b", ⟨.comma, ","⟩, word "c", ⟨.equals, "=="⟩,
      word "d", ⟨.semicolon, ";"⟩]
    let parser := ((Parser.ofSource (tokens.map some)).setOperator
      .star .equals .binary).setOperator .comma .sum .binary
    (parser.parseExpression .lowest).1 =
      .ok (.binary (.binary (.identifier "a") "*" (.binary (.identifier "b") ","
        (.identifier "c"))) "==" (.identifier "d")) := by
  intro word tokens parser
  have atom (name : String) : parser.tables.Atom (word name) :=
    ⟨rfl, List.mem_cons_self, fun number => by cases number⟩
  let star : Link := ⟨⟨.star, "*"⟩, word "b"⟩
  let comma : Link := ⟨⟨.comma, ","⟩, word "c"⟩
  let equals : Link := ⟨⟨.equals, "=="⟩, word "d"⟩
  have linked : ∀ link ∈ [star, comma, equals], parser.tables.Linked link := by
    simp only [List.forall_mem_cons]
    exact ⟨⟨rfl, atom "b"⟩, ⟨rfl, atom "c"⟩, ⟨rfl, atom "d"⟩, List.forall_mem_nil _⟩
  have hahead : parser.cursor.ahead =
      word "a" :: (chainTokens [star, comma, equals] ++ [⟨.semicolon, ";"⟩]) := by decide
  have taken : [star, comma, equals].takeWhile (Link.above parser.tables .lowest) =
      [star, comma, equals] := by decide
  have tree : chainTree parser.tables (word "a").leaf [star, comma, equals] =
      .binary (.binary (.identifier "a") "*" (.binary (.identifier "b") "," (.identifier "c")))
        "==" (.identifier "d") := by
    have last : Weakest parser.tables [star, comma] equals [] := ⟨by decide, by decide⟩
    have first : Weakest parser.tables [] star [comma] := ⟨by decide, by decide⟩
    have inner : Weakest parser.tables [] comma [] := ⟨by decide, by decide⟩
    have whole := last.chainTree_eq (word "a").leaf
    rw [chainTree_nil, ← List.nil_append [star, comma], first.chainTree_eq, chainTree_nil,
      ← List.nil_append [comma], inner.chainTree_eq, chainTree_nil, chainTree_nil] at whole
    exact whole
  have stops : ¬ BindingPower.lowest < parser.tables.power .semicolon := by decide
  have chain := parseExpression_chain hahead (atom "a") linked stops
  simp only [taken, tree] at chain
  rcases chain with ⟨-, read, -⟩ | ⟨few, -⟩
  · exact read
  · exact absurd few (by decide)

end Monkey
