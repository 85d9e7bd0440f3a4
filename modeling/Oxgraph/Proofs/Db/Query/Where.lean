import Oxgraph.Lib.Result
import Oxgraph.Spec.Where

/-! The `WHERE` parser accepts exactly its grammar. -/

namespace Oxgraph

-- Positions.

/-- Whether the tokens from one position to another are the given ones. -/
def Spans (tokens : List String) : Nat → Nat → List String → Prop
  | start, stop, [] => start = stop
  | start, stop, token :: rest => tokens[start]? = some token ∧ Spans tokens (start + 1) stop rest

section Spans

variable {tokens : List String} {start stop : Nat}

/-- Two stretches that meet are one. -/
theorem spans_append {left right : List String} :
    Spans tokens start stop (left ++ right) ↔
      ∃ middle, Spans tokens start middle left ∧ Spans tokens middle stop right := by
  induction left generalizing start with
  | nil => simp [Spans]
  | cons token left ih => simp [Spans, ih, and_assoc]

variable {stretch : List String}

/-- A stretch is as long as its positions are apart. -/
theorem Spans.length (spans : Spans tokens start stop stretch) : start + stretch.length = stop := by
  induction stretch generalizing start with
  | nil => simpa [Spans] using spans
  | cons token stretch ih =>
    have rest := ih spans.2
    simp only [List.length_cons]
    omega

/-- The tokens past a position are a stretch up to the end. -/
theorem spans_drop (start : Nat) (inside : start ≤ tokens.length) :
    Spans tokens start tokens.length (tokens.drop start) := by
  -- Position by position from the end, each token stands before those past it.
  induction h : tokens.length - start generalizing start with
  | zero =>
    have done : start = tokens.length := by omega
    simp [done, Spans]
  | succ left ih =>
    have here : start < tokens.length := by omega
    rw [List.drop_eq_getElem_cons here]
    exact ⟨List.getElem?_eq_getElem here, ih (start + 1) here (by omega)⟩

/-- A stretch is what stands between its positions. -/
theorem Spans.eq_take (spans : Spans tokens start stop stretch) :
    stretch = (tokens.drop start).take stretch.length := by
  induction stretch generalizing start with
  | nil => simp
  | cons token stretch ih =>
    obtain ⟨here, rest⟩ := spans
    obtain ⟨inside, rfl⟩ := List.getElem?_eq_some_iff.mp here
    rw [List.drop_eq_getElem_cons inside, List.length_cons, List.take_succ_cons, ← ih rest]

/-- The whole list is the one stretch from its start to its end. -/
theorem spans_whole : Spans tokens 0 tokens.length stretch ↔ stretch = tokens := by
  constructor
  · intro spans
    have length := spans.length
    have taken := spans.eq_take
    rw [show stretch.length = tokens.length by omega] at taken
    simpa using taken
  · rintro rfl
    simpa using spans_drop 0 (Nat.zero_le _)

end Spans

-- Operators.

/-- The operators parse from their spellings. -/
theorem parseCompareOp_spelling (op : CompareOp) : parseCompareOp op.spelling = .ok op := by
  cases op <;> rfl

/-- An operator that parses is spelled by its token. -/
theorem parseCompareOp_eq_ok {token : String} {op : CompareOp} :
    parseCompareOp token = .ok op ↔ token = op.spelling := by
  constructor
  · intro parsed
    unfold parseCompareOp at parsed
    split_ifs at parsed with first second third fourth fifth
    all_goals cases parsed
    all_goals assumption
  · rintro rfl
    exact parseCompareOp_spelling op

section Parse

variable {tokens : List String}

-- What is parsed is derivable.

/-- Whether a parse result accounts for the tokens it read. -/
def Read (tokens : List String) (level : Nonterminal) {start : Nat}
    (parsed : ParsedPredicate start) : Prop :=
  ∃ stretch, Spans tokens start parsed.cursor stretch ∧ Derives level stretch parsed.predicate

/-- A keyword stands where its upper case does. -/
theorem keyword_iff {cursor : Nat} {keyword : String} :
    (tokens.map toAsciiUppercase)[cursor]? = some keyword ↔
      ∃ token, tokens[cursor]? = some token ∧ toAsciiUppercase token = keyword := by
  rw [List.getElem?_map, Option.map_eq_some_iff]

/-- A parsed comparison accounts for its three tokens. -/
theorem Read.comparison {cursor : Nat} {parsed : ParsedPredicate cursor}
    (bare : tokens[cursor]? ≠ some "(") (parses : parseComparison tokens cursor = .ok parsed) :
    Read tokens .factor parsed := by
  unfold parseComparison at parses
  split at parses
  · cases parses
  rename_i key first
  split at parses
  · cases parses
  rename_i operator second
  split at parses
  · cases parses
  rename_i value third
  obtain ⟨op, spelled, done⟩ := bind_eq_ok.mp parses
  cases done
  obtain rfl := parseCompareOp_eq_ok.mp spelled
  refine ⟨[key, op.spelling, value], ⟨first, second, third, rfl⟩, .comparison op value ?_⟩
  -- The token read as the key is not the one that opens a group.
  rintro rfl
  exact bare first

/-- A predicate between parentheses accounts for them too. -/
theorem Read.group {cursor : Nat} {inner : ParsedPredicate (cursor + 1)}
    (opening : tokens[cursor]? = some "(") (read : Read tokens .or inner)
    (closing : tokens[inner.cursor]? = some ")") (advanced : cursor < inner.cursor + 1) :
    Read tokens .factor ⟨inner.predicate, inner.cursor + 1, advanced⟩ := by
  obtain ⟨stretch, spans, derived⟩ := read
  exact ⟨"(" :: (stretch ++ [")"]), ⟨opening, spans_append.mpr ⟨_, spans, closing, rfl⟩⟩,
    .group derived⟩

/-- One more operand of a disjunction. -/
theorem Read.or {start : Nat} {left : ParsedPredicate start} (before : Read tokens .or left)
    (keyword : (tokens.map toAsciiUppercase)[left.cursor]? = some "OR")
    {right : ParsedPredicate (left.cursor + 1)} (after : Read tokens .and right)
    (advanced : start < right.cursor) :
    Read tokens .or ⟨.or left.predicate right.predicate, right.cursor, advanced⟩ := by
  obtain ⟨first, here, derived⟩ := before
  obtain ⟨second, there, derived'⟩ := after
  obtain ⟨token, stands, spelled⟩ := keyword_iff.mp keyword
  exact ⟨first ++ token :: second, spans_append.mpr ⟨_, here, stands, there⟩,
    .or derived spelled derived'⟩

/-- One more operand of a conjunction. -/
theorem Read.and {start : Nat} {left : ParsedPredicate start} (before : Read tokens .and left)
    (keyword : (tokens.map toAsciiUppercase)[left.cursor]? = some "AND")
    {right : ParsedPredicate (left.cursor + 1)} (after : Read tokens .factor right)
    (advanced : start < right.cursor) :
    Read tokens .and ⟨.and left.predicate right.predicate, right.cursor, advanced⟩ := by
  obtain ⟨first, here, derived⟩ := before
  obtain ⟨second, there, derived'⟩ := after
  obtain ⟨token, stands, spelled⟩ := keyword_iff.mp keyword
  exact ⟨first ++ token :: second, spans_append.mpr ⟨_, here, stands, there⟩,
    .and derived spelled derived'⟩

/-- A parsed predicate accounts for the tokens it read. -/
theorem read_of_parsed {start : Nat} {parsed : ParsedPredicate start}
    (parses : parsePredicateOr tokens (tokens.map toAsciiUppercase) start = .ok parsed) :
    Read tokens .or parsed := by
  -- Along the calls: a chain that extends what accounts for its tokens still does.
  refine (parsePredicateOr.mutual_induct tokens (tokens.map toAsciiUppercase)
    (fun cursor => ∀ parsed,
      parsePredicateOr tokens (tokens.map toAsciiUppercase) cursor = .ok parsed →
      Read tokens .or parsed)
    (fun _ left => Read tokens .or left → ∀ parsed,
      parseOrs tokens (tokens.map toAsciiUppercase) left = .ok parsed → Read tokens .or parsed)
    (fun cursor => ∀ parsed,
      parsePredicateAnd tokens (tokens.map toAsciiUppercase) cursor = .ok parsed →
      Read tokens .and parsed)
    (fun _ left => Read tokens .and left → ∀ parsed,
      parseAnds tokens (tokens.map toAsciiUppercase) left = .ok parsed → Read tokens .and parsed)
    (fun cursor => ∀ parsed,
      parsePredicateFactor tokens (tokens.map toAsciiUppercase) cursor = .ok parsed →
      Read tokens .factor parsed)
    ?or ?ors ?noOr ?and ?ands ?noAnd ?group ?comparison).1 start parsed parses
  case or =>
    intro cursor operand chain parsed parses
    rw [parsePredicateOr] at parses
    obtain ⟨left, first, rest⟩ := bind_eq_ok.mp parses
    obtain ⟨stretch, spans, derived⟩ := operand left first
    -- The first operand alone is a disjunction, which the chain then extends.
    exact chain left ⟨stretch, spans, .conjunction derived⟩ parsed rest
  case ors =>
    intro start left keyword operand chain before parsed parses
    rw [parseOrs, dif_pos keyword] at parses
    obtain ⟨right, next, rest⟩ := bind_eq_ok.mp parses
    exact chain right (before.or keyword (operand right next) _) parsed rest
  case noOr =>
    intro start left absent before parsed parses
    rw [parseOrs, dif_neg absent] at parses
    cases parses
    exact before
  case and =>
    intro cursor operand chain parsed parses
    rw [parsePredicateAnd] at parses
    obtain ⟨left, first, rest⟩ := bind_eq_ok.mp parses
    obtain ⟨stretch, spans, derived⟩ := operand left first
    -- The first factor alone is a conjunction, which the chain then extends.
    exact chain left ⟨stretch, spans, .factor derived⟩ parsed rest
  case ands =>
    intro start left keyword operand chain before parsed parses
    rw [parseAnds, dif_pos keyword] at parses
    obtain ⟨right, next, rest⟩ := bind_eq_ok.mp parses
    exact chain right (before.and keyword (operand right next) _) parsed rest
  case noAnd =>
    intro start left absent before parsed parses
    rw [parseAnds, dif_neg absent] at parses
    cases parses
    exact before
  case group =>
    intro cursor opening operand parsed parses
    rw [parsePredicateFactor, dif_pos opening] at parses
    obtain ⟨inner, first, rest⟩ := bind_eq_ok.mp parses
    -- Without its closing parenthesis a group is refused.
    split_ifs at rest with unclosed
    cases rest
    exact (operand inner first).group opening (not_not.mp unclosed) _
  case comparison =>
    intro cursor bare parsed parses
    rw [parsePredicateFactor, dif_neg bare] at parses
    exact .comparison bare parses

-- What is derivable is parsed.

/-- What a derivation of a stretch makes of a parse from its start. -/
def Parses (tokens : List String) (level : Nonterminal) (tree : LogicalPredicate)
    (start stop : Nat) : Prop :=
  ∃ advanced : start < stop,
    let parsed : ParsedPredicate start := ⟨tree, stop, advanced⟩
    let upper := tokens.map toAsciiUppercase
    match level with
    | .or => upper[stop]? ≠ some "AND" →
        parsePredicateOr tokens upper start = parseOrs tokens upper parsed
    | .and => parsePredicateAnd tokens upper start = parseAnds tokens upper parsed
    | .factor => parsePredicateFactor tokens upper start = .ok parsed

/-- A derivable stretch parses, up to what may still extend it. -/
theorem parses_of_derives {level : Nonterminal} {stretch : List String} {tree : LogicalPredicate}
    (derived : Derives level stretch tree) {start stop : Nat}
    (spans : Spans tokens start stop stretch) : Parses tokens level tree start stop := by
  induction derived generalizing start stop with
  | conjunction _ ih =>
    obtain ⟨advanced, parses⟩ := ih spans
    refine ⟨advanced, fun follows => ?_⟩
    -- A conjunction ends before what is no `AND`, and may start a disjunction.
    rw [parsePredicateOr, parses, parseAnds, dif_neg follows]
    rfl
  | or _ spelled _ before after =>
    obtain ⟨middle, here, stands, there⟩ := spans_append.mp spans
    obtain ⟨advanced, first⟩ := before here
    obtain ⟨advanced', second⟩ := after there
    have keyword : (tokens.map toAsciiUppercase)[middle]? = some "OR" :=
      keyword_iff.mpr ⟨_, stands, spelled⟩
    refine ⟨by omega, fun follows => ?_⟩
    -- The keyword that follows the first operand is no `AND`, so the operand ends there.
    rw [first (by rw [keyword]; decide), parseOrs, dif_pos keyword, second, parseAnds,
      dif_neg follows]
    rfl
  | factor _ ih =>
    obtain ⟨advanced, parses⟩ := ih spans
    refine ⟨advanced, ?_⟩
    show parsePredicateAnd tokens _ start = _
    rw [parsePredicateAnd, parses]
    rfl
  | and _ spelled _ before after =>
    obtain ⟨middle, here, stands, there⟩ := spans_append.mp spans
    obtain ⟨advanced, first⟩ := before here
    obtain ⟨advanced', second⟩ := after there
    have keyword : (tokens.map toAsciiUppercase)[middle]? = some "AND" :=
      keyword_iff.mpr ⟨_, stands, spelled⟩
    refine ⟨by omega, ?_⟩
    show parsePredicateAnd tokens _ start = _
    rw [first, parseAnds, dif_pos keyword, second]
    rfl
  | group _ ih =>
    obtain ⟨opening, inside⟩ := spans
    obtain ⟨middle, within, closing, rfl⟩ := spans_append.mp inside
    obtain ⟨advanced, parses⟩ := ih within
    have closed : (tokens.map toAsciiUppercase)[middle]? = some ")" :=
      keyword_iff.mpr ⟨_, closing, by decide⟩
    refine ⟨by omega, ?_⟩
    show parsePredicateFactor tokens _ start = _
    -- The closing parenthesis is neither keyword, so the predicate ends before it.
    rw [parsePredicateFactor, dif_pos opening, parses (by rw [closed]; decide), parseOrs,
      dif_neg (by rw [closed]; decide)]
    simp [closing, bind, Except.bind, pure, Except.pure]
  | comparison op value bare =>
    obtain ⟨first, second, third, rfl⟩ := spans
    refine ⟨by omega, ?_⟩
    show parsePredicateFactor tokens _ start = _
    -- The key is not the token that would open a group.
    have leaf : tokens[start]? ≠ some "(" := by simpa [first] using bare
    rw [parsePredicateFactor, dif_neg leaf]
    simp [parseComparison, first, second, third, parseCompareOp_spelling, bind, Except.bind, pure,
      Except.pure]

/-- A list of tokens parses as a predicate exactly when it is derivable, and to its tree. -/
theorem parseElementWhere_eq_ok {op : LogicalOp} :
    parseElementWhere tokens (tokens.map toAsciiUppercase) = .ok op ↔
      ∃ tree, Derives .or tokens tree ∧ tree.operation = op := by
  have ending : (tokens.map toAsciiUppercase)[tokens.length]? = none := by simp
  constructor
  · intro parses
    obtain ⟨parsed, whole, rest⟩ := bind_eq_ok.mp parses
    split_ifs at rest with trailing
    obtain ⟨stretch, spans, derived⟩ := read_of_parsed whole
    -- The cursor stands at the end, so what was read is the whole list.
    rw [not_not.mp trailing] at spans
    obtain rfl := spans_whole.mp spans
    refine ⟨parsed.predicate, derived, ?_⟩
    split at rest <;> cases rest <;> simp_all [LogicalPredicate.operation]
  · rintro ⟨tree, derived, rfl⟩
    obtain ⟨advanced, parses⟩ := parses_of_derives derived (spans_whole.mpr rfl)
    unfold parseElementWhere
    -- Nothing follows the last token, so nothing extends the predicate.
    rw [parses (by rw [ending]; decide), parseOrs, dif_neg (by rw [ending]; decide)]
    show (if tokens.length ≠ tokens.length then _ else _) = _
    rw [if_neg (not_not.mpr rfl)]
    cases tree with
    | compare key op value => cases op <;> rfl
    | and | or => rfl

/-- A derivable list of tokens has one tree. -/
theorem derives_unique {first second : LogicalPredicate} (derived : Derives .or tokens first)
    (derived' : Derives .or tokens second) : first = second := by
  -- The parser is a function, and an operation determines its tree.
  have one := parseElementWhere_eq_ok.mpr ⟨first, derived, rfl⟩
  have other := parseElementWhere_eq_ok.mpr ⟨second, derived', rfl⟩
  exact LogicalPredicate.operation_injective (Except.ok.inj (one.symm.trans other))

/-- A printed tree parses back, exactly when no key is an opening parenthesis. -/
theorem parse_printed (tree : LogicalPredicate) :
    parseElementWhere tree.printed (tree.printed.map toAsciiUppercase) = .ok tree.operation ↔
      tree.Bare := by
  rw [parseElementWhere_eq_ok]
  constructor
  · rintro ⟨derived, derivation, same⟩
    -- A derivable list has a bare tree, and the printed list has only this one.
    rw [← LogicalPredicate.operation_injective same]
    exact derivation.bare
  · intro bare
    exact ⟨tree, derives_printed bare, rfl⟩

end Parse

/--
The parser of a `WHERE` predicate accepts exactly the derivable lists of tokens, and returns the
operation of the one tree such a list has; a tree printed with its parentheses parses back to it,
as long as no key is the token that opens a group.
-/
theorem parseElementWhere_grammar :
    (∀ (tokens : List String) (op : LogicalOp),
      parseElementWhere tokens (tokens.map toAsciiUppercase) = .ok op ↔
        ∃ tree, Derives .or tokens tree ∧ tree.operation = op) ∧
    (∀ (tokens : List String) (first second : LogicalPredicate),
      Derives .or tokens first → Derives .or tokens second → first = second) ∧
    (∀ tree : LogicalPredicate,
      parseElementWhere tree.printed (tree.printed.map toAsciiUppercase) = .ok tree.operation ↔
        tree.Bare) :=
  ⟨fun _ _ => parseElementWhere_eq_ok, fun _ _ _ => derives_unique, parse_printed⟩

/-- Keywords in any case, a keyword as a key and one as a value, and a group. -/
theorem parseElementWhere_grammar_keywords :
    let tokens := ["(", "size", "=", "1", "or", "AND", "<", "OR", ")", "And", "rank", ">=", "2"]
    parseElementWhere tokens (tokens.map toAsciiUppercase) =
      .ok (.elementWhere (.and (.or (.compare "size" .eq "1") (.compare "AND" .lt "OR"))
        (.compare "rank" .ge "2"))) := by
  have size := @Derives.comparison "size" .eq "1" (by decide)
  have keyword := @Derives.comparison "AND" .lt "OR" (by decide)
  have rank := @Derives.comparison "rank" .ge "2" (by decide)
  -- The group is a factor, and so an operand of the conjunction as a whole.
  have group := Derives.group (.or (.conjunction (.factor size))
    (show toAsciiUppercase "or" = "OR" by decide) (.factor keyword))
  have whole := Derives.and (.factor group) (show toAsciiUppercase "And" = "AND" by decide) rank
  exact (parseElementWhere_grammar.1 _ _).mpr ⟨_, .conjunction whole, rfl⟩

end Oxgraph
