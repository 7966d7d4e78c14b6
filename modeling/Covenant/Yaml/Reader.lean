/-
Reading a document of nested mappings and sequences. Block collections are told
apart by the column of their entries; flow collections stand between brackets.
A key is a scalar on one line with a colon and a blank behind it. Anchors, tags,
directives, block scalars and keys marked as such are not read.
-/
import Covenant.Yaml.Scalar

namespace Covenant.Yaml

/-- A node of a document. -/
inductive Node where
  | scalar (scalar : Scalar)
  | sequence (items : List Node)
  | mapping (entries : List (Scalar × Node))

/-! ## Characters -/

def isBreak (c : Char) : Bool :=
  c = '\n' || c = '\r' || c = '\x85' || c = '\u2028' || c = '\u2029'

def isGap (c : Char) : Bool :=
  c = ' ' || c = '\t' || isBreak c

/-- Whether a gap or the end of the document follows. -/
def startsGap : List Char → Bool
  | [] => true
  | c :: _ => isGap c

/-- Whether a character may stand in a document. -/
def isAllowed (c : Char) : Bool :=
  c = '\t' || isBreak c || (' ' ≤ c && c ≤ '~')
    || (0xA0 ≤ c.toNat && c.toNat ≠ 0xFFFE && c.toNat ≠ 0xFFFF)

def isFlowMark (c : Char) : Bool :=
  c = ',' || c = '[' || c = ']' || c = '\x7b' || c = '\x7d'

/-- Whether a colon ends a key here. -/
def endsKey (inFlow : Bool) : List Char → Bool
  | [] => true
  | c :: _ => isGap c || (inFlow && isFlowMark c)

/-- Whether a text is at the start or the end of a document. -/
def isMarker (marker : String) (cs : List Char) : Bool :=
  marker.toList.isPrefixOf cs && startsGap (cs.drop marker.length)

def startMarker : String := "---"

def endMarker : String := "..."

def isAnyMarker (cs : List Char) : Bool :=
  isMarker startMarker cs || isMarker endMarker cs

/-! ## Positions -/

/-- A position in a document: what follows, the column, and whether only blanks stand before it
on its line. -/
structure Cursor where
  rest : List Char
  column : Nat
  isFresh : Bool

/-- Passes over blanks, comments and line ends. -/
def passLayout (inComment : Bool) (column : Nat) (isFresh : Bool) : List Char → Cursor
  | [] => ⟨[], column, isFresh⟩
  | c :: cs =>
    if isBreak c then passLayout false 0 true cs
    else if inComment then passLayout true (column + 1) isFresh cs
    else if c = ' ' then passLayout false (column + 1) isFresh cs
    else if c = '#' then passLayout true (column + 1) isFresh cs
    else ⟨c :: cs, column, isFresh⟩

namespace Cursor

/-- The position of what comes next. -/
def skip (here : Cursor) : Cursor :=
  passLayout false here.column here.isFresh here.rest

/-- The position behind so many characters of the line. -/
def advance (here : Cursor) (count : Nat) : Cursor :=
  ⟨here.rest.drop count, here.column + count, false⟩

/-- Whether the document ends here. -/
def isFinished (here : Cursor) : Bool :=
  here.rest.isEmpty || (here.column = 0 && isAnyMarker here.rest)

/-- Whether an entry of a block sequence starts here. -/
def startsItem (here : Cursor) : Bool :=
  match here.rest with
  | '-' :: cs => startsGap cs
  | _ => false

/-- The position behind a colon that makes a key of what stands before it on the line. -/
def colon? (inFlow : Bool) (here : Cursor) : Option Cursor :=
  match here.rest.dropWhile (· = ' ') with
  | ':' :: cs => if inFlow || startsGap cs then some ⟨cs, here.column + 1, false⟩ else none
  | _ => none

end Cursor

/-! ## Scalars -/

/-- What stands between two words of a scalar: blanks, or line ends of which the first makes a
blank and the others stay. After an escaped line end the first makes nothing. -/
inductive Gap where
  | blanks (reversed : List Char)
  | lines (more : Nat) (isEscaped : Bool)

/-- The characters that a gap stands for, latest first. -/
def Gap.reversed : Gap → List Char
  | blanks reversed => reversed
  | lines 0 isEscaped => if isEscaped then [] else [' ']
  | lines more _ => List.replicate more '\n'

/-- The gap with one more line end. -/
def Gap.nextLine : Gap → Gap
  | blanks _ => lines 0 false
  | lines more isEscaped => lines (more + 1) isEscaped

def Gap.spansLines : Gap → Bool
  | blanks _ => false
  | lines .. => true

/-- A scalar that was read: where it ends and whether it spans lines. -/
structure ReadScalar where
  scalar : Scalar
  after : Cursor
  spansLines : Bool

/-- Whether a plain scalar ends at a character. -/
def endsPlain (inFlow : Bool) (c : Char) (cs : List Char) : Bool :=
  c = '\t' || (c = ':' && endsKey inFlow cs) || (inFlow && (isFlowMark c || c = '?'))

/-- Reads a plain scalar from inside it on. It goes on with lines whose column is at least `least`,
and ends before a comment. `reversed` holds its characters so far. -/
def plainFrom (inFlow : Bool) (least : Nat) (reversed : List Char) (gap : Gap) (spans : Bool)
    (column : Nat) : List Char → ReadScalar
  | [] => finish reversed gap spans column []
  | c :: cs =>
    if isBreak c then
      if isAnyMarker cs then finish reversed gap.nextLine true 0 cs
      else plainFrom inFlow least reversed gap.nextLine true 0 cs
    else if c = ' ' then
      let gap := match gap with
        | .blanks blanks => .blanks (' ' :: blanks)
        | lines => lines
      plainFrom inFlow least reversed gap spans (column + 1) cs
    else
      let isInside := match gap with
        | .blanks blanks => c ≠ '#' || blanks.isEmpty
        | .lines .. => c ≠ '#' && (inFlow || least ≤ column)
      if isInside && !endsPlain inFlow c cs then
        plainFrom inFlow least (c :: gap.reversed ++ reversed) (.blanks []) spans (column + 1) cs
      else finish reversed gap spans column (c :: cs)
where
  finish (reversed : List Char) (gap : Gap) (spans : Bool) (column : Nat) (rest : List Char) :
      ReadScalar :=
    ⟨⟨String.ofList reversed.reverse, true⟩, ⟨rest, column, gap.spansLines⟩, spans⟩

/-- The character that a letter stands for after a backslash. -/
def escapedChar? (c : Char) : Option Char :=
  ([('0', '\x00'), ('a', '\x07'), ('b', '\x08'), ('t', '\t'), ('\t', '\t'), ('n', '\n'),
    ('v', '\x0b'), ('f', '\x0c'), ('r', '\r'), ('e', '\x1b'), (' ', ' '), ('"', '"'),
    ('\\', '\\'), ('/', '/'), ('N', '\x85'), ('_', '\xa0'), ('L', '\u2028'),
    ('P', '\u2029')] : List (Char × Char)).lookup c

/-- The number of hexadecimal digits that follow a letter after a backslash. -/
def escapeWidth? (c : Char) : Option Nat :=
  if c = 'x' then some 2 else if c = 'u' then some 4 else if c = 'U' then some 8 else none

/-- The character that an escape stands for and the number of characters of the escape. -/
def escape? : List Char → Option (Char × Nat)
  | [] => none
  | c :: cs =>
    match escapedChar? c, escapeWidth? c with
    | some escaped, _ => some (escaped, 1)
    | none, some width =>
      let digits := cs.take width
      let code := evalDigits 16 digits
      if digits.length = width && digits.all isHexDigit && code.isValidChar then
        some (Char.ofNat code, width + 1)
      else none
    | none, none => none

/-- Reads the rest of a scalar between quotes; `passed` characters have been read already. -/
def quotedFrom (isDouble : Bool) (passed : Nat) (reversed : List Char) (gap : Gap) (spans : Bool) :
    List Char → Option (String × List Char × Bool)
  | [] => none
  | c :: cs =>
    if passed ≠ 0 then quotedFrom isDouble (passed - 1) reversed gap spans cs
    else if isBreak c then
      if isAnyMarker cs then none else quotedFrom isDouble 0 reversed gap.nextLine true cs
    else if isSpaceOrTab c then
      let gap := match gap with
        | .blanks blanks => .blanks (c :: blanks)
        | lines => lines
      quotedFrom isDouble 0 reversed gap spans cs
    else
      let before := gap.reversed ++ reversed
      if c = (if isDouble then '"' else '\'') then
        if !isDouble && cs.head? = some '\'' then
          quotedFrom isDouble 1 ('\'' :: before) (.blanks []) spans cs
        else some (String.ofList before.reverse, cs, spans)
      else if isDouble && c = '\\' then
        if cs.head?.any isBreak then
          quotedFrom isDouble 1 before (.lines 0 true) true cs
        else
          match escape? cs with
          | some (escaped, width) =>
            quotedFrom isDouble width (escaped :: before) (.blanks []) spans cs
          | none => none
      else quotedFrom isDouble 0 (c :: before) (.blanks []) spans cs

/-- Whether a character may not start a plain scalar. -/
def isIndicator (c : Char) : Bool :=
  "-?:,[]\x7b\x7d#&*!|>'\"%@`".toList.contains c

/-- Whether a plain scalar starts here. -/
def startsPlain (inFlow : Bool) (c : Char) (cs : List Char) : Bool :=
  !isGap c &&
    (!isIndicator c || (!startsGap cs && (c = '-' || (!inFlow && (c = '?' || c = ':')))))

/-- Reads the scalar at a position. -/
def scalarAt? (inFlow : Bool) (least : Nat) (here : Cursor) : Option ReadScalar :=
  match here.rest with
  | [] => none
  | c :: cs =>
    if c = '\'' || c = '"' then
      match quotedFrom (c = '"') 0 [] (.blanks []) false cs with
      | some (text, rest, spans) => some ⟨⟨text, false⟩, ⟨rest, here.column + 1, false⟩, spans⟩
      | none => none
    else if startsPlain inFlow c cs then
      some (plainFrom inFlow least [c] (.blanks []) false (here.column + 1) cs)
    else none

/-- A scalar as a value; the two marks are none. -/
def valueNode? (s : Scalar) : Option Node :=
  if s.kind = .merge || s.kind = .fallback then none else some (.scalar s)

/-- A scalar as a key; merging is not read. -/
def key? (s : Scalar) : Option Scalar :=
  if s.kind = .merge then none else some s

/-- Reads a key and its colon. -/
def keyAt? (inFlow : Bool) (here : Cursor) : Option (Scalar × Cursor) := do
  let read ← scalarAt? inFlow 0 here
  let key ← key? read.scalar
  if read.spansLines then none
  else return (key, ← read.after.colon? inFlow)

/-! ## Flow collections -/

mutual

/-- Reads a node between brackets. -/
def flowNode? (fuel : Nat) (here : Cursor) : Option (Node × Cursor) :=
  match fuel, here.rest with
  | fuel + 1, '[' :: _ => flowItems? fuel [] (here.advance 1).skip
  | fuel + 1, '\x7b' :: _ => flowEntries? fuel [] (here.advance 1).skip
  | _ + 1, _ => do
    let read ← scalarAt? true 0 here
    return (← valueNode? read.scalar, read.after)
  | 0, _ => none

/-- Reads the value behind a colon between brackets, which may be missing. -/
def flowValue? (fuel : Nat) (here : Cursor) : Option (Node × Cursor) :=
  match fuel with
  | 0 => none
  | fuel + 1 =>
    if here.rest.head?.any fun c => c = ',' || c = ']' || c = '\x7d'
      then some (.scalar .empty, here)
    else flowNode? fuel here

/-- Reads the items of a flow sequence, of which a key and its value may be one. -/
def flowItems? (fuel : Nat) (items : List Node) (here : Cursor) : Option (Node × Cursor) :=
  match fuel, here.rest with
  | 0, _ => none
  | _ + 1, ']' :: _ => some (.sequence items.reverse, here.advance 1)
  | fuel + 1, _ => do
    let (item, after) ←
      match keyAt? true here with
      | some (key, behind) => do
        let (value, after) ← flowValue? fuel behind.skip
        pure (Node.mapping [(key, value)], after)
      | none => flowNode? fuel here
    let next := after.skip
    match next.rest with
    | ',' :: _ => flowItems? fuel (item :: items) (next.advance 1).skip
    | ']' :: _ => some (.sequence (item :: items).reverse, next.advance 1)
    | _ => none

/-- Reads the entries of a flow mapping; a key alone has no value. -/
def flowEntries? (fuel : Nat) (entries : List (Scalar × Node)) (here : Cursor) :
    Option (Node × Cursor) :=
  match fuel, here.rest with
  | 0, _ => none
  | _ + 1, '\x7d' :: _ => some (.mapping entries.reverse, here.advance 1)
  | fuel + 1, _ => do
    let (entry, after) ←
      match keyAt? true here with
      | some (key, behind) => do
        let (value, after) ← flowValue? fuel behind.skip
        pure ((key, value), after)
      | none => do
        let read ← scalarAt? true 0 here
        pure ((← key? read.scalar, Node.scalar .empty), read.after)
    let next := after.skip
    match next.rest with
    | ',' :: _ => flowEntries? fuel (entry :: entries) (next.advance 1).skip
    | '\x7d' :: _ => some (.mapping (entry :: entries).reverse, next.advance 1)
    | _ => none

end

/-! ## Block collections -/

mutual

/-- Reads a node that starts at a column of at least `least`; one that is missing is empty. A
mapping may start only where `mayBeKey` says so. -/
def blockNode? (fuel least : Nat) (mayBeKey : Bool) (here : Cursor) : Option (Node × Cursor) :=
  match fuel with
  | 0 => none
  | fuel + 1 =>
    if here.isFinished || (here.isFresh && here.column < least) then some (.scalar .empty, here)
    else if here.startsItem then
      if mayBeKey then blockItems? fuel here.column [] here else none
    else if here.rest.head?.any fun c => c = '[' || c = '\x7b' then do
      let (node, after) ← flowNode? fuel here
      if (after.colon? false).isSome then none else some (node, after)
    else
      match keyAt? false here with
      | some (key, behind) =>
        if mayBeKey then blockEntries? fuel here.column [] key behind else none
      | none => do
        let read ← scalarAt? false least here
        if (read.after.colon? false).isSome then none
        else some (← valueNode? read.scalar, read.after)

/-- Reads the items of a block sequence whose dashes stand in a column. -/
def blockItems? (fuel column : Nat) (items : List Node) (here : Cursor) : Option (Node × Cursor) :=
  match fuel with
  | 0 => none
  | fuel + 1 => do
    let (item, after) ← blockNode? fuel (column + 1) true (here.advance 1).skip
    let next := after.skip
    if next.isFinished then some (.sequence (item :: items).reverse, next)
    else if !next.isFresh || column < next.column then none
    else if next.column = column && next.startsItem then
      blockItems? fuel column (item :: items) next
    else some (.sequence (item :: items).reverse, next)

/-- Reads the value of a key and the entries after it, whose keys stand in a column. The dashes
of a sequence may stand in the column of its key. -/
def blockEntries? (fuel column : Nat) (entries : List (Scalar × Node)) (key : Scalar)
    (behind : Cursor) : Option (Node × Cursor) :=
  match fuel with
  | 0 => none
  | fuel + 1 => do
    let here := behind.skip
    let (value, after) ←
      if here.isFresh && here.column = column && here.startsItem
        then blockItems? fuel column [] here
      else blockNode? fuel (column + 1) here.isFresh here
    let next := after.skip
    let entries := (key, value) :: entries
    if next.isFinished then some (.mapping entries.reverse, next)
    else if !next.isFresh || column < next.column then none
    else if next.column < column then some (.mapping entries.reverse, next)
    else do
      let (nextKey, nextBehind) ← keyAt? false next
      blockEntries? fuel column entries nextKey nextBehind

end

/-! ## Documents -/

/-- Whether nothing but end markers follows. -/
def isOver (fuel : Nat) (here : Cursor) : Bool :=
  match fuel with
  | 0 => false
  | fuel + 1 =>
    here.rest.isEmpty
      || (here.column = 0 && isMarker endMarker here.rest && isOver fuel (here.advance 3).skip)

/-- The first position of a text; a byte order mark is passed over. -/
def startOf (cs : List Char) : Cursor :=
  match cs with
  | '\ufeff' :: rest => ⟨rest, 0, true⟩
  | cs => ⟨cs, 0, true⟩

/-- Reads a text of one document; an empty one is an empty scalar. -/
def read? (text : String) : Option Node := do
  let cs := text.toList
  let fuel := 4 * cs.length + 8
  guard (cs.all isAllowed)
  let first := (startOf cs).skip
  guard !(first.column = 0 && isMarker endMarker first.rest)
  let start := if first.column = 0 && isMarker startMarker first.rest then (first.advance 3).skip
    else first
  let (node, after) ← blockNode? fuel 0 start.isFresh start
  guard (isOver fuel after.skip)
  return node

end Covenant.Yaml
