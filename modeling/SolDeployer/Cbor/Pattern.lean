import SolDeployer.Text.Printable

/-!
# Regular expressions

Whether a text is a regular expression. Beside the brackets and the signs
of repetition this is a matter of groups: a group is referred to by its
number or its name once it is closed, and what is looked for behind a
position has to have one length.
-/

namespace SolDeployer.Cbor.Pattern

/-! ## Pieces -/

/-- A piece of an expression: a character, or one after a backslash. -/
inductive Piece where
  | char (c : Char)
  | escaped (c : Char)
  deriving Repr, DecidableEq

/-- The pieces of a text, `none` if it ends with a backslash. -/
def pieces? : List Char → Option (List Piece)
  | [] => some []
  | ['\\'] => none
  | '\\' :: c :: rest => (pieces? rest).map (.escaped c :: ·)
  | c :: rest => (pieces? rest).map (.char c :: ·)

def textOf (pieces : List Piece) : List Char :=
  pieces.flatMap fun piece =>
    match piece with
    | .char c => [c]
    | .escaped c => ['\\', c]

/-- The characters at the start that pass a test, at most so many, and the
pieces after them. -/
def run (test : Char → Bool) : (most : Nat) → List Piece → List Char × List Piece
  | most + 1, .char c :: rest =>
    if test c then
      let (chars, rest) := run test most rest
      (c :: chars, rest)
    else ([], .char c :: rest)
  | _, pieces => ([], pieces)

/-- The text up to a character, which is not empty, and the pieces after
the character. -/
def until? (stop : Char) (pieces : List Piece) : Option (List Char × List Piece) :=
  let inside := pieces.takeWhile (· != .char stop)
  match pieces.drop inside.length with
  | [] => none
  | _ :: rest => if inside.isEmpty then none else some (textOf inside, rest)

/-- Is the character a digit of base eight? -/
def isOctal (c : Char) : Bool := '0' ≤ c && c ≤ '7'

def isHex (c : Char) : Bool := c.isDigit || ('a' ≤ c && c ≤ 'f') || ('A' ≤ c && c ≤ 'F')

def valueOf (base : Nat) (digits : List Char) : Nat :=
  digits.foldl
    (fun total c =>
      total * base + (if c.isDigit then c.toNat - 48 else c.toLower.toNat - 87))
    0

/-- Is the text a name? It is made of letters, digits and underscores, and
does not begin with a digit. Letters of all scripts count. -/
def isName (text : List Char) : Bool :=
  let isLetter := fun (c : Char) =>
    c.isAlpha || c == '_' || (128 ≤ c.toNat && Text.isPrintable c)
  match text with
  | [] => false
  | c :: rest => isLetter c && rest.all fun c => isLetter c || c.isDigit

/-! ## Widths and groups -/

/-- How many characters an expression takes, at least and at most. -/
structure Width where
  least : Nat
  most : Nat
  deriving Repr, DecidableEq, Inhabited

/-- More characters than any repetition takes. -/
def unlimited : Nat := 4294967295

namespace Width

/-- No character. -/
def none : Width := ⟨0, 0⟩

/-- One character. -/
def one : Width := ⟨1, 1⟩

/-- One expression after another. -/
def add (a b : Width) : Width := ⟨a.least + b.least, a.most + b.most⟩

/-- One expression or another. -/
def either (a b : Width) : Width := ⟨min a.least b.least, max a.most b.most⟩

/-- An expression so many times. -/
def times (a : Width) (least most : Nat) : Width := ⟨a.least * least, a.most * most⟩

def limited (a : Width) : Width := ⟨min a.least (unlimited - 1), min a.most unlimited⟩

end Width

/-- The groups that were begun, by number from one on, with their widths if
they are closed, and by name. Behind a position no group counts that was
begun there: `behind` is how many there were before. A condition may name
a group that is still to come, so the largest such number is kept. -/
structure Groups where
  widths : List (Option Width)
  names : List (String × Nat)
  behind : Option Nat
  awaited : Nat
  flags : List Char
  deriving Repr, Inhabited

namespace Groups

/-- The width of a group that may be referred to. -/
def width? (groups : Groups) (number : Nat) : Option Width :=
  if number = 0 then none
  else
    match groups.widths[number - 1]? with
    | some (some width) =>
      match groups.behind with
      | some count => if count < number then none else some width
      | none => some width
    | _ => none

/-- Begin a group, which may have a name that no other group has. -/
def begin? (groups : Groups) (name? : Option (List Char)) : Option (Nat × Groups) :=
  let number := groups.widths.length + 1
  let widths := groups.widths ++ [none]
  match name? with
  | none => some (number, { groups with widths })
  | some name =>
    let name := String.ofList name
    if groups.names.any (·.1 == name) then none
    else some (number, { groups with widths, names := (name, number) :: groups.names })

def close (groups : Groups) (number : Nat) (width : Width) : Groups :=
  { groups with widths := groups.widths.set (number - 1) (some width.limited) }

def number? (groups : Groups) (name : List Char) : Option Nat :=
  (groups.names.find? (·.1 == String.ofList name)).map Prod.snd

end Groups

/-! ## Escapes -/

/-- What a piece of an expression stands for. -/
inductive Item where
  /-- One character: `none` if it may be one of several. -/
  | char (code : Option Nat)
  /-- A place between characters. -/
  | position
  /-- The text of a group. -/
  | group (width : Width)
  deriving Repr, DecidableEq

/-- A character by so many digits of its code in base sixteen. -/
def hexChar? (count : Nat) (rest : List Piece) : Option (Item × List Piece) :=
  let (digits, rest) := run isHex count rest
  let code := valueOf 16 digits
  if digits.length = count ∧ code < 0x110000 then some (.char code, rest) else none

/-- A character by its name in braces. -/
def namedChar? : List Piece → Option (Item × List Piece)
  | .char '\x7b' :: rest =>
    match until? '\x7d' rest with
    | some (name, rest) =>
      if name.all fun c => c.isAlphanum || c == ' ' || c == '-' then some (.char none, rest)
      else none
    | none => none
  | _ => none

/-- A character whose escape has the same meaning everywhere. -/
def commonEscape? (isText : Bool) (c : Char) (rest : List Piece) : Option (Item × List Piece) :=
  if c = 'x' then hexChar? 2 rest
  else if isText ∧ c = 'u' then hexChar? 4 rest
  else if isText ∧ c = 'U' then hexChar? 8 rest
  else if isText ∧ c = 'N' then namedChar? rest
  else if ['d', 'D', 's', 'S', 'w', 'W'].contains c then some (.char none, rest)
  else
    match [('a', 7), ('f', 12), ('n', 10), ('r', 13), ('t', 9), ('v', 11)].find? (·.1 == c) with
    | some (_, code) => some (.char (some code), rest)
    | none => if c.isAlpha ∨ c.isDigit then none else some (.char (some c.toNat), rest)

def escapeInSet? (isText : Bool) (c : Char) (rest : List Piece) : Option (Item × List Piece) :=
  if c = 'b' then some (.char (some 8), rest)
  else if isOctal c then
    let (digits, rest) := run isOctal 2 rest
    let code := valueOf 8 (c :: digits)
    if code ≤ 255 then some (.char (some code), rest) else none
  else commonEscape? isText c rest

def reference? (groups : Groups) (digits : List Char) (rest : List Piece) :
    Option (Item × List Piece) :=
  (groups.width? (valueOf 10 digits)).map fun width => (.group width, rest)

/-- What an escape outside of a set stands for. Three octal digits are a
character, and fewer digits refer to a group unless the first is zero. -/
def escapeOutside? (isText : Bool) (groups : Groups) (c : Char) (rest : List Piece) :
    Option (Item × List Piece) :=
  if ['A', 'b', 'B', 'Z'].contains c then some (.position, rest)
  else if c = '0' then
    let (digits, rest) := run isOctal 2 rest
    some (.char (some (valueOf 8 digits)), rest)
  else if c.isDigit then
    match run Char.isDigit 1 rest with
    | ([second], afterSecond) =>
      match run isOctal 1 afterSecond with
      | ([third], afterThird) =>
        if isOctal c && isOctal second then
          let code := valueOf 8 [c, second, third]
          if code ≤ 255 then some (.char (some code), afterThird) else none
        else reference? groups [c, second] afterSecond
      | _ => reference? groups [c, second] afterSecond
    | _ => reference? groups [c] rest
  else commonEscape? isText c rest

/-! ## Sets -/

/-- A member of a set before ranges are made, and the pieces after it. -/
def member? (isText : Bool) : List Piece → Option (Option Nat × List Piece)
  | [] => none
  | .char c :: rest => some (some c.toNat, rest)
  | .escaped c :: rest =>
    match escapeInSet? isText c rest with
    | some (.char code, rest) => some (code, rest)
    | _ => none

/-- The pieces after a set, from a member on. The first member may be a
closing bracket. -/
def afterMembers? (isText : Bool) :
    (fuel : Nat) → (isFirst : Bool) → List Piece → Option (List Piece)
  | 0, _, _ => none
  | fuel + 1, isFirst, pieces =>
    if !isFirst && pieces.head? == some (.char ']') then some (pieces.drop 1)
    else
      match member? isText pieces with
      | none => none
      | some (_, .char '-' :: .char ']' :: rest) => some rest
      | some (low, .char '-' :: rest) =>
        match low, member? isText rest with
        | some low, some (some high, rest) =>
          if high < low then none else afterMembers? isText fuel false rest
        | _, _ => none
      | some (_, rest) => afterMembers? isText fuel false rest

/-- The pieces after a set, from after its opening bracket on. -/
def afterSet? (isText : Bool) (pieces : List Piece) : Option (List Piece) :=
  let pieces := if pieces.head? == some (.char '^') then pieces.drop 1 else pieces
  afterMembers? isText (pieces.length + 1) true pieces

/-! ## Repetition -/

/-- What the numbers in braces mean. -/
inductive Braces where
  /-- The brace stands for itself. -/
  | plain
  | times (least most : Nat) (rest : List Piece)
  | senseless

/-- The meaning of an opening brace before some pieces. -/
def braces (pieces : List Piece) : Braces :=
  if pieces.head? == some (.char '\x7d') then .plain
  else
    let (low, rest) := run Char.isDigit pieces.length pieces
    let (high, rest) := match rest with
      | .char ',' :: rest => run Char.isDigit rest.length rest
      | rest => (low, rest)
    match rest with
    | .char '\x7d' :: rest =>
      let least := valueOf 10 low
      let most := if high.isEmpty then unlimited else valueOf 10 high
      if unlimited ≤ least ∨ (!high.isEmpty ∧ unlimited ≤ most) ∨ most < least then .senseless
      else .times least most rest
    | _ => .plain

/-- The pieces after the sign that says how a repetition is tried. -/
def afterManner : List Piece → List Piece
  | .char '?' :: rest => rest
  | .char '+' :: rest => rest
  | rest => rest

/-- The last item of a sequence. -/
inductive Last where
  | nothing
  | position
  | repeated (width : Width)
  | item (width : Width)
  deriving Repr, DecidableEq

/-- How many characters the last item takes. -/
def Last.width : Last → Width
  | .nothing | .position => .none
  | .repeated width | .item width => width

/-! ## Flags -/

/-- What flags in brackets are about. -/
inductive Flags where
  /-- The whole expression. -/
  | all (on : List Char)
  /-- The rest of the group. -/
  | group (on off : List Char)

def flagNames : List Char := ['i', 'L', 'm', 's', 'x', 'a', 't', 'u']

def alphabetFlags : List Char := ['a', 'L', 'u']

/-- The flags to turn off, and the pieces after them. -/
def flagsOff? (on : List Char) : (off : List Char) → List Piece → Option (Flags × List Piece)
  | off, .char c :: rest =>
    if c = ':' ∧ off ≠ [] then
      if off.contains 't' ∨ off.any on.contains then none else some (.group on off, rest)
    else if flagNames.contains c ∧ ¬alphabetFlags.contains c then flagsOff? on (c :: off) rest
    else none
  | _, _ => none

/-- The flags to turn on and off, and the pieces after them. -/
def flags? (isText : Bool) : (on : List Char) → List Piece → Option (Flags × List Piece)
  | on, .char c :: rest =>
    if c = ')' ∧ on ≠ [] then some (.all on, rest)
    else if c = ':' ∧ on ≠ [] then if on.contains 't' then none else some (.group on [], rest)
    else if c = '-' then if on.contains 't' then none else flagsOff? on [] rest
    else if ¬flagNames.contains c ∨ c = (if isText then 'L' else 'u') then none
    else if alphabetFlags.contains c ∧ on.any fun d => alphabetFlags.contains d && d != c then none
    else flags? isText (c :: on) rest
  | _, _ => none

/-! ## Expressions -/

/-- Where a sequence stands: whether blanks and comments are left out, and
whether it is the start of the expression. -/
structure Setting where
  isText : Bool
  spaced : Bool
  isStart : Bool

/-- What a sequence takes, the groups after it, and the pieces after it. -/
abbrev Step := Option (Width × Groups × List Piece)

def afterClose? : List Piece → Option (List Piece)
  | .char ')' :: rest => some rest
  | _ => none

/-- What opens after an opening bracket. -/
inductive Opening where
  | capture (name? : Option (List Char)) (rest : List Piece)
  | plain (spaced : Option Bool) (rest : List Piece)
  | ahead (rest : List Piece)
  | behind (rest : List Piece)
  | condition (name : List Char) (rest : List Piece)
  | reference (name : List Char) (rest : List Piece)
  | comment (rest : List Piece)
  | flags (on : List Char) (rest : List Piece)

def opening? (isText : Bool) : List Piece → Option Opening
  | .char '?' :: .char 'P' :: .char '<' :: rest =>
    (until? '>' rest).map fun (name, rest) => .capture (some name) rest
  | .char '?' :: .char 'P' :: .char '=' :: rest =>
    (until? ')' rest).map fun (name, rest) => .reference name rest
  | .char '?' :: .char ':' :: rest | .char '?' :: .char '>' :: rest => some (.plain none rest)
  | .char '?' :: .char '#' :: rest =>
    (afterClose? (rest.dropWhile (· != .char ')'))).map .comment
  | .char '?' :: .char '=' :: rest | .char '?' :: .char '!' :: rest => some (.ahead rest)
  | .char '?' :: .char '<' :: .char '=' :: rest
  | .char '?' :: .char '<' :: .char '!' :: rest => some (.behind rest)
  | .char '?' :: .char '(' :: rest =>
    (until? ')' rest).map fun (name, rest) => .condition name rest
  | .char '?' :: rest =>
    match flags? isText [] rest with
    | some (.all on, rest) => some (.flags on rest)
    | some (.group on off, rest) =>
      some (.plain (if off.contains 'x' then some false else if on.contains 'x' then some true
        else none) rest)
    | none => none
  | rest => some (.capture none rest)

/-- The group that a condition asks for, by name or by number, with the
number noted as one that has to come. -/
def conditionGroups? (groups : Groups) (name : List Char) : Option Groups :=
  let allowed := fun (number : Nat) =>
    match groups.behind with
    | none => true
    | some _ => (groups.width? number).isSome
  if isName name then
    match groups.number? name with
    | some number => if allowed number then some groups else none
    | none => none
  else if name.all Char.isDigit then
    let number := valueOf 10 name
    if number = 0 ∨ unlimited / 4 ≤ number ∨ !allowed number then none
    else some { groups with awaited := max groups.awaited number }
  else none

mutual

/-- Sequences with bars between them. -/
def alternatives? : (fuel : Nat) → Setting → Groups → List Piece → Step
  | 0, _, _, _ => none
  | fuel + 1, setting, groups, pieces =>
    match sequence? fuel setting groups .none .nothing pieces with
    | none => none
    | some (width, groups, .char '|' :: rest) =>
      match alternatives? fuel { setting with isStart := false } groups rest with
      | none => none
      | some (other, groups, rest) => some (width.either other, groups, rest)
    | step => step

/-- Items one after the other, up to a bar, a closing bracket or the end.
What was read takes `before` and then the last item. -/
def sequence? : (fuel : Nat) → Setting → Groups → (before : Width) → Last → List Piece → Step
  | 0, _, _, _, _, _ => none
  | fuel + 1, setting, groups, before, last, pieces =>
    let next := fun (item : Last) (rest : List Piece) =>
      sequence? fuel setting groups (before.add last.width) item rest
    let again := fun (least most : Nat) (rest : List Piece) =>
      match last with
      | .item width =>
        sequence? fuel setting groups before (.repeated (width.times least most)) (afterManner rest)
      | _ => none
    match pieces with
    | [] => some (before.add last.width, groups, [])
    | .escaped c :: rest =>
      match escapeOutside? setting.isText groups c rest with
      | none => none
      | some (.char _, rest) => next (.item .one) rest
      | some (.position, rest) => next .position rest
      | some (.group width, rest) => next (.item width) rest
    | .char c :: rest =>
      if c = '|' ∨ c = ')' then some (before.add last.width, groups, pieces)
      else if setting.spaced ∧ [' ', '\t', '\n', '\r', '\x0b', '\x0c'].contains c then
        sequence? fuel setting groups before last rest
      else if setting.spaced ∧ c = '#' then
        sequence? fuel setting groups before last ((rest.dropWhile (· != .char '\n')).drop 1)
      else if c = '[' then
        match afterSet? setting.isText rest with
        | none => none
        | some rest => next (.item .one) rest
      else if c = '*' then again 0 unlimited rest
      else if c = '+' then again 1 unlimited rest
      else if c = '?' then again 0 1 rest
      else if c = '\x7b' then
        match braces rest with
        | .plain => next (.item .one) rest
        | .times least most rest => again least most rest
        | .senseless => none
      else if c = '^' ∨ c = '$' then next .position rest
      else if c = '(' then group? fuel setting groups before last rest
      else next (.item .one) rest

/-- A group after its opening bracket, and what follows it. -/
def group? : (fuel : Nat) → Setting → Groups → (before : Width) → Last → List Piece → Step
  | 0, _, _, _, _, _ => none
  | fuel + 1, setting, groups, before, last, pieces =>
    let inner : Setting := { setting with isStart := false }
    let next := fun (groups : Groups) (item : Last) (rest : List Piece) =>
      sequence? fuel setting groups (before.add last.width) item rest
    match opening? setting.isText pieces with
    | none => none
    | some (.comment rest) => sequence? fuel setting groups before last rest
    | some (.flags on rest) =>
      if setting.isStart ∧ last = .nothing then
        let groups := { groups with flags := on ++ groups.flags }
        let setting := { setting with spaced := setting.spaced || on.contains 'x' }
        sequence? fuel setting groups before last rest
      else none
    | some (.reference name rest) =>
      match (groups.number? name).bind groups.width? with
      | none => none
      | some width => next groups (.item width) rest
    | some (.capture name? rest) =>
      if (name?.map isName).getD true then
        match groups.begin? name? with
        | none => none
        | some (number, groups) =>
          match alternatives? fuel inner groups rest with
          | some (width, groups, .char ')' :: rest) =>
            next (groups.close number width) (.item width) rest
          | _ => none
      else none
    | some (.plain spaced rest) =>
      match alternatives? fuel { inner with spaced := spaced.getD setting.spaced } groups rest with
      | some (width, groups, .char ')' :: rest) => next groups (.item width) rest
      | _ => none
    | some (.ahead rest) =>
      match alternatives? fuel inner groups rest with
      | some (_, groups, .char ')' :: rest) => next groups (.item .none) rest
      | _ => none
    | some (.behind rest) =>
      let counted := groups.behind.getD groups.widths.length
      match alternatives? fuel inner { groups with behind := some counted } rest with
      | some (width, after, .char ')' :: rest) =>
        if width.limited.least = width.limited.most then
          next { after with behind := groups.behind } (.item .none) rest
        else none
      | _ => none
    | some (.condition name rest) =>
      match conditionGroups? groups name with
      | none => none
      | some groups =>
        match sequence? fuel inner groups .none .nothing rest with
        | some (width, groups, .char ')' :: rest) => next groups (.item ⟨0, width.most⟩) rest
        | some (width, groups, .char '|' :: rest) =>
          match sequence? fuel inner groups .none .nothing rest with
          | some (other, groups, .char ')' :: rest) =>
            next groups (.item (width.either other)) rest
          | _ => none
        | _ => none

end

/-- Is a text a regular expression? One for bytes knows no characters
beyond them. -/
def isValid (isText : Bool) (text : List Char) : Bool :=
  match pieces? text with
  | none => false
  | some pieces =>
    let fuel := 4 * pieces.length + 4
    match alternatives? fuel ⟨isText, false, true⟩ ⟨[], [], none, 0, []⟩ pieces with
    | some (_, groups, []) =>
      groups.awaited ≤ groups.widths.length
        && !(groups.flags.contains 'a' && groups.flags.any fun c => c == 'u' || c == 'L')
    | _ => false

end SolDeployer.Cbor.Pattern
