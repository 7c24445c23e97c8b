/-
  CUSTOM QUERIES (`evaluate_custom_query` and its parsers in sync/automerge.rs).

  A text is a list of characters; a byte position between no two of them is the panic of
  a slice (`none`). Positions are found in the upper-case text and used in the text
  itself, which may have another length.
-/
import Peat.Storage.AutomergeConversion
import Peat.Sync.LikePattern

namespace Peat.Sync.CustomQuery

abbrev Text := List Char

/-- What lies outside the crate: `to_uppercase` of a character, and the numbers texts stand for. -/
structure Outside where
  upper : Char → Text
  parseI64 : Text → Option Int64
  /-- Whether a number is within `f64::EPSILON` of the float that the text stands for. -/
  nearF64 : Text → Option (Number → Bool)

def asciiOutside : Outside where
  upper c := [c.toUpper]
  parseI64 _ := none
  nearF64 _ := none

/-! ## 1. Texts -/

def isWhitespace (c : Char) : Bool :=
  9 ≤ c.toNat && c.toNat ≤ 13 || [0x20, 0x85, 0xA0, 0x1680, 0x2028, 0x2029, 0x202F, 0x205F,
    0x3000].contains c.toNat || 0x2000 ≤ c.toNat && c.toNat ≤ 0x200A

def trim (t : Text) : Text :=
  ((t.dropWhile isWhitespace).reverse.dropWhile isWhitespace).reverse

def byteLen : Text → Nat
  | [] => 0
  | c :: t => c.utf8Size + byteLen t

def splitAtByte : Nat → Text → Option (Text × Text)
  | 0, t => some ([], t)
  | _ + 1, [] => none
  | n + 1, c :: t =>
    if c.utf8Size ≤ n + 1 then (splitAtByte (n + 1 - c.utf8Size) t).map fun p => (c :: p.1, p.2)
    else none

def findSplit (pattern : Text) : Text → Option (Text × Text)
  | [] => if pattern.isPrefixOf [] then some ([], []) else none
  | c :: t =>
    if pattern.isPrefixOf (c :: t) then some ([], (c :: t).drop pattern.length)
    else (findSplit pattern t).map fun p => (c :: p.1, p.2)

def enclosed (first last : Char) (t : Text) : Option Text :=
  if [first].isPrefixOf t ∧ [last].isSuffixOf t ∧ 2 ≤ t.length then some t.tail.dropLast else none

def keep (t : Text) (r : Option (Option (Text × Text))) : Option (Option (Text × Text)) :=
  r.map (Option.map fun p => (t ++ p.1, p.2))

def splitCompound (delimiter : Text) : Bool → Int → Text → Option (Option (Text × Text))
  | _, _, [] => some none
  | inQuote, depth, c :: t =>
    if c = '\'' then keep [c] (splitCompound delimiter (!inQuote) depth t)
    else if c = '(' ∧ inQuote = false then keep [c] (splitCompound delimiter inQuote (depth + 1) t)
    else if c = ')' ∧ inQuote = false then keep [c] (splitCompound delimiter inQuote (depth - 1) t)
    else if inQuote = false ∧ depth = 0 then
      if delimiter.isPrefixOf (c :: t) then some (some ([], (c :: t).drop delimiter.length))
      else if c.utf8Size = 1 then keep [c] (splitCompound delimiter inQuote depth t)
      else none
    else keep [c] (splitCompound delimiter inQuote depth t)

inductive Op where
  | or
  | and
  deriving DecidableEq

def Op.word : Op → Text
  | .or => ['O', 'R']
  | .and => ['A', 'N', 'D']

def Op.delimiter (op : Op) : Text := ' ' :: (op.word ++ [' '])

/-! The texts that the parsers look for. -/

def keyIsNotNull : Text := [' ', 'I', 'S', ' ', 'N', 'O', 'T', ' ', 'N', 'U', 'L', 'L']
def keyIsNull : Text := [' ', 'I', 'S', ' ', 'N', 'U', 'L', 'L']
def keyLike : Text := [' ', 'L', 'I', 'K', 'E', ' ']
def keyIn : Text := [' ', 'I', 'N', ' ']
def keyStartsWith : Text := [' ', 'S', 'T', 'A', 'R', 'T', 'S', ' ', 'W', 'I', 'T', 'H', ' ']
def keyEndsWith : Text := [' ', 'E', 'N', 'D', 'S', ' ', 'W', 'I', 'T', 'H', ' ']
def keyNot : Text := ['N', 'O', 'T', ' ']
def keyContains : Text := ['C', 'O', 'N', 'T', 'A', 'I', 'N', 'S', '(']

def extractStringLiteral (value : Text) : Option Text := enclosed '\'' '\'' (trim value)

/-! ## 2. The meaning of the patterns -/

def get (doc : Document) (field : Text) : Option Value := doc.fields.lookup (String.ofList field)

def nestedIn : Value → List Text → Option Value
  | v, [] => some v
  | .object members, part :: parts =>
    (members.lookup (String.ofList part)).bind fun v => nestedIn v parts
  | _, _ => none

def getNestedField (doc : Document) (field : Text) : Option Value :=
  if field.contains '.' = false then get doc field
  else
    match field.splitOn '.' with
    | [] => none
    | first :: parts => (get doc first).bind fun v => nestedIn v parts

def equalsText (doc : Document) (field literal : Text) : Bool :=
  match getNestedField doc field with
  | some (.string s) => s.toList == literal
  | _ => false

def startsWithText (doc : Document) (field start : Text) : Bool :=
  match get doc field with
  | some (.string s) => start.isPrefixOf s.toList
  | _ => false

def endsWithText (doc : Document) (field ending : Text) : Bool :=
  match get doc field with
  | some (.string s) => ending.isSuffixOf s.toList
  | _ => false

def containsText (doc : Document) (field search : Text) : Bool :=
  match get doc field with
  | some (.array items) => items.any fun v => v.asStr == some (String.ofList search)
  | some (.string s) => (findSplit search s.toList).isSome
  | _ => false

def likeText (doc : Document) (field pattern : Text) : Bool :=
  match getNestedField doc field with
  | some (.string s) => matchLikePattern s.toList pattern
  | _ => false

def evaluateIsNull (doc : Document) (field : Text) (isNull : Bool) : Bool :=
  let valueIsNull := match getNestedField doc field with
    | none => true
    | some .null => true
    | _ => false
  if isNull then valueIsNull else !valueIsNull

section Evaluating

variable (out : Outside) (doc : Document)

def evaluateIn (field : Text) (values : List Text) : Bool :=
  match getNestedField doc field with
  | some (.string s) => values.any fun v => v == s.toList
  | some (.number n) =>
    match Storage.asI64 n with
    | some i => values.any fun v => out.parseI64 v == some i
    | none => values.any fun v => ((out.nearF64 v).map fun near => near n) == some true
  | some (.bool b) => values.any fun v => v == (if b then "true" else "false").toList
  | _ => false

def evaluateEquality (field value : Text) : Bool :=
  if value = ['t', 'r', 'u', 'e'] then ((getNestedField doc field).bind Value.asBool).getD false
  else if value = ['f', 'a', 'l', 's', 'e'] then !((getNestedField doc field).bind Value.asBool).getD true
  else
    match extractStringLiteral value with
    | some literal => equalsText doc field literal
    | none =>
      match out.parseI64 value with
      | some i =>
        match getNestedField doc field with
        | some (.number n) => Storage.asI64 n == some i
        | _ => false
      | none =>
        match out.nearF64 value with
        | some near =>
          match getNestedField doc field with
          | some (.number n) => near n
          | _ => false
        | none => true

/-- `evaluate_starts_with`, `evaluate_ends_with` and `evaluate_like`; a value without quotes matches. -/
def evaluateText (test : Document → Text → Text → Bool) (field value : Text) : Bool :=
  match extractStringLiteral value with
  | none => true
  | some literal => test doc field literal

def evaluateContains (expr : Text) : Bool :=
  match findSplit [','] (expr.drop 9).dropLast with
  | none => true
  | some (field, value) => evaluateText doc containsText (trim field) (trim value)

/-! ## 3. The parsers -/

/-- `parse_starts_with`, `parse_ends_with`, `parse_like` and the first half of `parse_in`. -/
def parseKeyword (keyword expr : Text) : Option (Option (Text × Text)) :=
  match findSplit keyword (expr.flatMap out.upper) with
  | none => some none
  | some (before, _) =>
    match splitAtByte (byteLen before) expr,
      splitAtByte (byteLen before + byteLen keyword) expr with
    | some (field, _), some (_, value) => some (some (trim field, trim value))
    | _, _ => none

def parseIn (expr : Text) : Option (Option (Text × List Text)) :=
  (parseKeyword out keyIn expr).map fun found => found.bind fun p =>
    (enclosed '[' ']' p.2).map fun inner =>
      (p.1, (inner.splitOn ',').map fun v => (extractStringLiteral (trim v)).getD (trim v))

def parseNotExpression (expr : Text) : Option (Option Text) :=
  if keyNot.isPrefixOf (expr.flatMap out.upper) then
    (splitAtByte 4 expr).map fun p => some ((enclosed '(' ')' (trim p.2)).getD (trim p.2))
  else some none

def parseIsNull (expr : Text) : Option (Option (Text × Bool)) :=
  match findSplit keyIsNotNull (expr.flatMap out.upper) with
  | some (before, _) => (splitAtByte (byteLen before) expr).map fun p => some (trim p.1, false)
  | none =>
    match findSplit keyIsNull (expr.flatMap out.upper) with
    | some (before, _) => (splitAtByte (byteLen before) expr).map fun p => some (trim p.1, true)
    | none => some none

def parseInequality (expr : Text) : Option (Text × Text) :=
  match findSplit ['!', '='] expr with
  | none => none
  | some (field, value) =>
    if trim field ≠ [] ∧ trim value ≠ [] then some (trim field, trim value) else none

def parseEquality (expr : Text) : Option (Text × Text) :=
  (findSplit ['=', '='] expr).map fun p => (trim p.1, trim p.2)

def evaluateEnds (expr : Text) : Option Bool :=
  match parseKeyword out keyStartsWith expr with
  | none => none
  | some (some (field, value)) => some (evaluateText doc startsWithText field value)
  | some none =>
    match parseKeyword out keyEndsWith expr with
    | none => none
    | some (some (field, value)) => some (evaluateText doc endsWithText field value)
    | some none => some true

def evaluateKeyword (expr : Text) : Option Bool :=
  match parseKeyword out keyLike expr with
  | none => none
  | some (some (field, pattern)) => some (evaluateText doc likeText field pattern)
  | some none =>
    match parseIn out expr with
    | none => none
    | some (some (field, values)) => some (evaluateIn out doc field values)
    | some none => evaluateEnds out doc expr

def evaluateComparison (expr : Text) : Option Bool :=
  match parseInequality expr with
  | some (field, value) => some (!evaluateEquality out doc field value)
  | none =>
    match parseEquality expr with
    | some (field, value) => some (evaluateEquality out doc field value)
    | none => evaluateKeyword out doc expr

def evaluatePattern (expr : Text) : Option Bool :=
  if keyContains.isPrefixOf expr ∧ [')'].isSuffixOf expr then some (evaluateContains doc expr)
  else
    match parseIsNull out expr with
    | none => none
    | some (some (field, isNull)) => some (evaluateIsNull doc field isNull)
    | some none => evaluateComparison out doc expr

/-- `evaluate_custom_query`; every call is made with a shorter text. -/
def evaluate : Nat → Text → Option Bool
  | 0, _ => none
  | fuel + 1, query =>
    match splitCompound Op.or.delimiter false 0 (trim query) with
    | none => none
    | some (some (left, right)) =>
      match evaluate fuel left with
      | some false => evaluate fuel right
      | result => result
    | some none =>
      match splitCompound Op.and.delimiter false 0 (trim query) with
      | none => none
      | some (some (left, right)) =>
        match evaluate fuel left with
        | some true => evaluate fuel right
        | result => result
      | some none =>
        let expr := (enclosed '(' ')' (trim query)).getD (trim query)
        match parseNotExpression out expr with
        | none => none
        | some (some inner) => (evaluate fuel inner).map fun b => !b
        | some none => evaluatePattern out doc expr

def evaluateCustomQuery (query : Text) : Option Bool := evaluate out doc (query.length + 1) query

end Evaluating

end Peat.Sync.CustomQuery
