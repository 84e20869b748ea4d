import FreeNames.Grammar.RegExp.Draft

/-!
# Regular expression patterns

Whether the pattern of a regular expression literal is well formed: groups and classes are closed,
the ends of a range in a class are in order, there is something in front of every quantifier,
references are to groups that are closed, and what a lookbehind looks back over has one width. The
meaning of a pattern is of no interest here.
-/

namespace FreeNames.Grammar.RegExp

/-- What stands in front of a place in a sequence, as far as a quantifier there is concerned. -/
inductive Before where
  | nothing
  /-- A place such as the start of a line, which cannot be repeated. -/
  | place
  /-- Something that can be repeated. -/
  | item
  /-- Something that is repeated. -/
  | repeated
  deriving DecidableEq, Repr

/-- A sequence of items that is being read. -/
structure Sequence where
  /-- What all items but the last match. -/
  earlier : Width := .zero
  /-- What the last item matches. -/
  last : Width := .zero
  before : Before := .nothing

namespace Sequence

/-- What the sequence matches. -/
def width (s : Sequence) : Width := s.earlier ++ s.last

/-- The sequence with one more item. -/
def add (s : Sequence) (w : Width) (before : Before) : Sequence := ⟨s.width, w, before⟩

/-- The sequence with its last item repeated. -/
def repeated (s : Sequence) (count : Reading.Count) : Sequence :=
  { s with last := s.last.times count.least count.greatest, before := .repeated }

end Sequence

/-! ### Openings of groups -/

/-- What an opening parenthesis begins. -/
inductive Opening where
  /-- A comment, or flags for the whole pattern. -/
  | remark
  | flags
  /-- A reference to a group, which matches what the group matched. -/
  | reference (w : Width)
  | look (isBehind : Bool)
  /-- A choice that depends on whether a group was matched. -/
  | choice
  /-- A group: whether it is numbered, its name, and flags that are on or off inside. -/
  | group (isNumbered : Bool) (name : Option (List Symbol)) (on off : List Char)

namespace Reading

/-- The letters of flags. -/
def isFlag (c : Char) : Bool := "iLmsxatu".contains c

/-- Whether flags leave open what the characters of a pattern are: only one of these can be on. -/
def isTypeFlag (c : Char) : Bool := c = 'a' || c = 'L' || c = 'u'

/-- Reads the letters of flags behind the first one, up to a mark that ends them. -/
def flagLetters (isEnd : Char → Bool) (letters : List Char) : Nat → Reading (List Char × Char)
  | 0 => failure
  | n + 1 => do
    match (← take).char? with
    | none => failure
    | some c =>
      if isEnd c then return (letters, c)
      else
        ensure (isFlag c)
        flagLetters isEnd (c :: letters) n

/-- Asks that flags can be turned on: one at most of those that say what characters are, and that
not by the locale. -/
def ensureOn (letters : List Char) : Reading Unit :=
  ensure (!letters.contains 'L' && !(letters.contains 'a' && letters.contains 'u'))

/-- Reads flags, behind the first character of them. -/
def flagGroup (first : Char) : Reading Opening := do
  let steps := (← get).rest.length + 1
  let (on, close) ← if first = '-' then pure ([], '-')
    else flagLetters (fun c => c = ')' || c = '-' || c = ':') [first] steps
  ensureOn on
  if close = ')' then
    modify fun d => { d with flags := d.flags ++ on }
    return .flags
  ensure (!on.contains 't')
  let off ← if close = '-' then do
      let (off, _) ← flagLetters (· = ':') [] steps
      ensure (!off.isEmpty)
      pure off
    else pure []
  ensure (!off.any isTypeFlag && !off.contains 't' && !on.any off.contains)
  return .group false none on off

/-- Whether characters give the number of a group: digits, perhaps with underscores between them. -/
def isGroupNumber (cs : List Char) : Bool :=
  !cs.isEmpty && cs.head? != some '_' && cs.getLast? != some '_' &&
    cs.all (fun c => c.isDigit || c = '_') && !(cs.zip (cs.drop 1)).contains ('_', '_')

/-- The number of a group that is given by symbols: blanks and a plus sign in front count for
nothing. -/
def groupNumber (symbols : List Symbol) : Reading Nat := do
  let cs ← match symbols.mapM Symbol.char? with
    | some cs => pure cs
    | none => failure
  let isBlank (c : Char) : Bool := c.isWhitespace || c = '\x0b' || c = '\x0c'
  let cs := ((cs.dropWhile isBlank).reverse.dropWhile isBlank).reverse
  let cs := if cs.head? = some '+' then cs.drop 1 else cs
  ensure (isGroupNumber cs)
  let n := Text.digitsValue 10 (cs.filter fun c => c ≠ '_')
  ensure (n ≠ 0)
  return n

/-- Reads the condition of a choice. A group by number may follow only later. -/
def condition : Reading Opening := do
  let symbols ← takeUntil ')'
  let group ← if isGroupName symbols then groupNamed symbols
    else do
      let n ← groupNumber symbols
      modify fun d => { d with conditions := n :: d.conditions }
      pure n
  ensureBeforeLookbehind group
  return .choice

/-- Reads what follows an opening parenthesis and tells what it begins. -/
def opening : Reading Opening := do
  if !(← takes '?') then return .group true none [] []
  match (← take).char? with
  | some 'P' =>
    if ← takes '<' then return .group true (some (← groupName '>')) [] []
    expect '='
    return .reference (← reference (← groupNamed (← groupName ')')))
  | some ':' | some '>' => return .group false none [] []
  | some '#' =>
    modify fun d => { d with rest := d.rest.dropWhile fun s => !s.is ')' }
    expect ')'
    return .remark
  | some '=' | some '!' => return .look false
  | some '<' =>
    let next ← take
    ensure (next.is '=' || next.is '!')
    return .look true
  | some '(' => condition
  | some c =>
    ensure (isFlag c || c = '-')
    flagGroup c
  | none => failure

/-- Reads a part inside a lookbehind. References in it are to groups in front of the outermost one. -/
def behind {α : Type} (part : Reading α) : Reading α := do
  let outer := (← get).beforeLookbehind
  modify fun d => { d with beforeLookbehind := some (outer.getD d.groups.size) }
  let a ← part
  modify fun d => { d with beforeLookbehind := outer }
  return a

/-- Asks that a lookbehind has one width, and not an enormous one. -/
def ensureFixed (w : Width) : Reading Unit := ensure (w.low = w.high && w.low ≤ repeatLimit)

/-- Reads a quantifier behind its first character: a question mark makes it lazy, a plus keeps what it
matched. There has to be something in front of it that is not repeated already. -/
def quantified (s : Sequence) (count : Count) : Reading Sequence := do
  ensure (s.before = .item)
  modify fun d => { d with hasQuantifier := true }
  if !(← takes '?') then let _ ← takes '+'
  return s.repeated count

/-- Blanks, which count for nothing where the flag `x` is on. -/
def isVerboseBlank (c : Char) : Bool := " \t\n\r\x0b\x0c".contains c

/-- Reads one item of a sequence that is no group and begins with a symbol. -/
def plainItem (s : Sequence) (symbol : Symbol) : Reading Sequence := do
  match symbol with
  | .escaped p =>
    match ← escape p with
    | some w => return s.add w .item
    | none => return s.add .zero .place
  | .plain p =>
    match p.char? with
    | some '^' | some '$' => return s.add .zero .place
    | some '[' =>
      charClass
      return s.add .one .item
    | some '?' => quantified s ⟨0, some 1⟩
    | some '*' => quantified s ⟨0, none⟩
    | some '+' => quantified s ⟨1, none⟩
    | some '{' =>
      match ← counts with
      | some count => quantified s count
      | none => return s.add .one .item
    | _ => return s.add .one .item

/-- Whether a symbol counts for nothing where the flag `x` is on: a blank, or a comment up to the end
of its line, which is then read. -/
def skipsVerbose (symbol : Symbol) : Reading Bool := do
  if symbol.satisfies isVerboseBlank then return true
  else if symbol.is '#' then
    modify fun d => { d with rest := (d.rest.dropWhile fun s => !s.is '\n').drop 1 }
    return true
  else return false

mutual
/-- Reads alternatives. `isTop` says that they are in no group, `isFirst` that none is in front. -/
def alternatives (isVerbose isTop isFirst : Bool) : Nat → Reading Width
  | 0 => failure
  | n + 1 => do
    let w ← sequence isVerbose (isTop && isFirst) {} n
    if ← takes '|' then
      let flags := (← get).flags
      let isVerbose := if isTop then flags.contains 'x' else isVerbose
      return w.either (← alternatives isVerbose isTop false n)
    else return w

/-- Reads the rest of a sequence. `allowsFlags` says that flags for the whole pattern may stand at its
start. -/
def sequence (isVerbose allowsFlags : Bool) (s : Sequence) : Nat → Reading Width
  | 0 => failure
  | n + 1 => do
    match ← ahead with
    | none => return s.width
    | some symbol =>
      if symbol.is '|' || symbol.is ')' then return s.width
      let _ ← take
      let isSkipped ← if isVerbose then skipsVerbose symbol else pure false
      if isSkipped then sequence isVerbose allowsFlags s n
      else if !symbol.is '(' then
        sequence isVerbose allowsFlags (← plainItem s symbol) n
      else
        match ← opening with
        | .remark => sequence isVerbose allowsFlags s n
        | .flags =>
          ensure (allowsFlags && s.before = .nothing)
          sequence ((← get).flags.contains 'x') allowsFlags s n
        | .reference w => sequence isVerbose allowsFlags (s.add w .item) n
        | .look isBehind =>
          let part := alternatives isVerbose false true n
          if isBehind then ensureFixed (← behind part) else let _ ← part
          expect ')'
          sequence isVerbose allowsFlags (s.add .zero .item) n
        | .choice =>
          let w ← sequence isVerbose false {} n
          let w ← if ← takes '|' then pure (w.either (← sequence isVerbose false {} n))
            else pure ⟨0, w.high⟩
          expect ')'
          sequence isVerbose allowsFlags (s.add w .item) n
        | .group isNumbered name on off =>
          let group ← if isNumbered then openGroup name else pure 0
          let inner := (isVerbose || on.contains 'x') && !off.contains 'x'
          let w ← alternatives inner false true n
          expect ')'
          if isNumbered then closeGroup group w
          sequence isVerbose allowsFlags (s.add w .item) n
end

/-- Reads a whole pattern. -/
def pattern : Reading Unit := do
  let _ ← alternatives false true true (2 * (← get).rest.length + 4)
  let d ← get
  ensure d.rest.isEmpty
  ensure (d.conditions.all fun group => group ≤ d.groups.size)
  ensureOn d.flags
  ensure (!(d.flags.contains 't' && d.hasQuantifier))

end Reading

/-- Whether a pattern is well formed. -/
def isWellFormed (text : String) : Bool :=
  match Symbol.ofPoints (resolved text) with
  | some symbols => (Reading.pattern.run { rest := symbols }).isSome
  | none => false

end FreeNames.Grammar.RegExp
