import Bundling.Document.Yaml.Scalar

/-!
YAML text: block collections by indentation, flow collections in brackets, scalars of all styles,
anchors with aliases, tags, and documents apart from each other. A text with several documents, or
whose one document is no table, holds no settings; a text without any holds none either, and that is
an empty table.
-/

set_option autoImplicit false
set_option relaxedAutoImplicit false

namespace Bundling.Yaml

/-- A value, with its members if it is a table. -/
structure Node where
  datum : Datum
  members : List (Datum × Datum) := []
  deriving DecidableEq, Inhabited

abbrev Anchors := List (String × Node)

/-- A node, the text behind it, and the anchors known there. -/
structure Found where
  node : Node
  rest : List Char
  anchors : Anchors

/-- A table of members; no key may occur twice. -/
def tableOf? (members : List (Datum × Datum)) : Option Node :=
  if (members.map Prod.fst).Nodup then some ⟨.table, members⟩ else none

/-! ### Lines -/

/-- Where the next line with content starts: its indentation, and the text from its content on. From
the end of a line on, blank lines and comments are passed over. A tab before the content stays in
the text, where nothing starts with it. -/
def nextContent (indent : Nat) (passing : Bool) : List Char → Nat × List Char
  | [] => (0, [])
  | c :: cs =>
    if c = '\n' then nextContent 0 false cs
    else if passing then nextContent indent true cs
    else if c = ' ' then nextContent (indent + 1) false cs
    else if c = '#' then nextContent indent true cs
    else if c = '\t' then
      match skipBlank cs with
      | [] => nextContent indent true cs
      | d :: _ => if d = '\n' ∨ d = '#' then nextContent indent true cs else (indent, c :: cs)
    else (indent, c :: cs)

/-- The text from the end of this line on, if nothing but blanks and a comment comes before it. -/
def lineEnd? (cs : List Char) : Option (List Char) :=
  match skipBlank cs with
  | [] => some []
  | '\n' :: rest => some ('\n' :: rest)
  | '#' :: rest => if cs.head? = some '#' then none else some (rest.dropWhile (· != '\n'))
  | _ => none

/-- Whether an entry of a block list starts here. -/
def isEntry : List Char → Bool
  | '-' :: cs => atGap cs
  | _ => false

/-- Whether a key with a mark of its own starts here. -/
def isMarkedKey : List Char → Bool
  | '?' :: cs => atGap cs
  | _ => false

/-- A key on this line, with the text behind its colon. -/
def key? (cs : List Char) : Option (Datum × List Char) :=
  let line := cs.takeWhile (· != '\n')
  let afterColon (rest : List Char) : Option (List Char) :=
    match rest with
    | ':' :: rest => if atGap rest then some (rest ++ cs.drop line.length) else none
    | _ => none
  match line with
  | '\'' :: _ | '"' :: _ => do
    let (s, rest) ← quoted? line
    let rest ← afterColon (skipBlank rest)
    some (.text (String.ofList s), rest)
  | _ =>
    if startsPlain false line then do
      let (s, rest) := plainLine false false line
      let rest ← afterColon (skipBlank rest)
      let d ← resolve? s
      some (d, rest)
    else none

/-- Plain text that goes on over lines indented deeper than `parent`. -/
def plainLines? (parent : Int) : Nat → Reader (List Char)
  | 0, _ => none
  | fuel + 1, cs =>
    let (found, rest) := plainLine false false cs
    match skipBlank rest with
    | '\n' :: _ =>
      let (gap, next) := fold rest
      let column : Nat := (rest.takeWhile fun c ↦ isBlank c || c == '\n').reverse.takeWhile
        (· == ' ') |>.length
      if parent < column ∧ next ≠ [] ∧ next.head? ≠ some '#' then
        (plainLines? parent fuel next).map fun r ↦ (found ++ gap ++ r.1, r.2)
      else some (found, rest)
    | ':' :: _ => none
    | _ => some (found, rest)

/-! ### Flow -/

/-- Passes over blanks, line breaks and comments. -/
def skipLoose (afterBlank inComment : Bool) : List Char → List Char
  | [] => []
  | c :: cs =>
    if c = '\n' then skipLoose true false cs
    else if inComment then skipLoose true true cs
    else if isBlank c then skipLoose true false cs
    else if c = '#' ∧ afterBlank then skipLoose true true cs
    else c :: cs

def isNameEnd (c : Char) : Bool := isBlank c || c == '\n' || isFlowMark c

def name? : Reader String := fun cs ↦
  (Reader.some? (fun c ↦ !isNameEnd c) cs).map fun r ↦ (String.ofList r.1, r.2)

/-- A tag or an anchor in front of a node. -/
inductive Mark where
  | tag (name : String)
  | anchor (name : String)
  deriving DecidableEq, Inhabited

/-- Whether a tag, behind its first mark, uses a handle of a document's own. None is ever known. -/
def hasHandle (name : List Char) : Bool := name.head? != some '!' && name.contains '!'

/-- A mark. A tag in angle brackets has no meaning here, whatever it says. -/
def mark? : Reader Mark
  | '&' :: cs => (name? cs).map fun r ↦ (.anchor r.1, r.2)
  | '!' :: '<' :: cs =>
    match cs.dropWhile (· != '>') with
    | '>' :: rest => some (.tag "!", rest)
    | _ => none
  | '!' :: cs =>
    let name := cs.takeWhile fun c ↦ !isNameEnd c
    if hasHandle name then none
    else some (.tag (String.ofList ('!' :: name)), cs.drop name.length)
  | _ => none

/-- What stands behind a mark if nothing does. -/
def bare? (tag : String) (rest : List Char) (anchors : Anchors) : Option Found :=
  (resolveAs? tag []).map fun d ↦ ⟨⟨d, []⟩, rest, anchors⟩

/-- Plain text in flow, which may go on over lines. -/
def flowPlain : Nat → List Char → List Char × List Char
  | 0, cs => ([], cs)
  | fuel + 1, cs =>
    let (found, rest) := plainLine true false cs
    match skipBlank rest with
    | '\n' :: _ =>
      let (gap, next) := fold rest
      let goesOn : Bool := match next with
        | [] => false
        | c :: cs => !(isFlowMark c || c == '#' || (c == ':' && atGap cs))
      if goesOn then
        let (more, rest) := flowPlain fuel next
        (found ++ gap ++ more, rest)
      else (found, rest)
    | _ => (found, rest)

def alias? (anchors : Anchors) (cs : List Char) : Option Found := do
  let (name, rest) ← name? cs
  let node ← anchors.lookup name
  some ⟨node, rest, anchors⟩

/-- What follows a key in flow: a value after a colon, or none. -/
def flowValue? (node : Anchors → List Char → Option Found) (anchors : Anchors) (adjacent : Bool)
    (cs : List Char) : Option (Option Found) :=
  match skipLoose false false cs with
  | ':' :: rest =>
    if atGap rest || adjacent || (rest.head?).any isFlowMark then
      match skipLoose true false rest with
      | [] => none
      | c :: more =>
        if c = ',' ∨ c = ']' ∨ c = '\x7d' then some (some ⟨⟨.empty, []⟩, c :: more, anchors⟩)
        else (node anchors (c :: more)).map some
    else none
  | _ => some none

/-- Entries of a flow list or table, up to the closing bracket. -/
def flowEntries? (node : Anchors → List Char → Option Found) (isTable : Bool) :
    Nat → Anchors → List (Datum × Datum) → List Char →
    Option (List (Datum × Datum) × List Char × Anchors)
  | 0, _, _, _ => none
  | fuel + 1, anchors, members, cs =>
    let close := if isTable then '\x7d' else ']'
    match skipLoose true false cs with
    | [] => none
    | c :: cs =>
      if c = close then some (members, cs, anchors)
      else do
        let content := if isMarkedKey (c :: cs) then skipLoose true false cs else c :: cs
        let key ← node anchors content
        let value ← flowValue? node key.anchors (c == '"' || c == '\'') key.rest
        let (rest, anchors) := match value with
          | some v => (v.rest, v.anchors)
          | none => (key.rest, key.anchors)
        let members := if isTable then
            members ++ [(key.node.datum, ((value.map fun v ↦ v.node.datum).getD .empty))]
          else members
        match skipLoose false false rest with
        | ',' :: rest => flowEntries? node isTable fuel anchors members rest
        | d :: rest => if d = close then some (members, rest, anchors) else none
        | [] => none

def withMark (mark : Mark) (f : Found) : Found :=
  match mark with
  | .tag _ => f
  | .anchor name => { f with anchors := (name, f.node) :: f.anchors }

/-- A node in flow. -/
def flowNode? : Nat → String → Anchors → List Char → Option Found
  | 0, _, _, _ => none
  | fuel + 1, tag, anchors, cs =>
    match cs with
    | [] => none
    | '[' :: rest => do
      let (_, rest, anchors) ←
        flowEntries? (flowNode? fuel "") false (rest.length + 1) anchors [] rest
      some ⟨⟨.list, []⟩, rest, anchors⟩
    | '\x7b' :: rest => do
      let (members, rest, anchors) ←
        flowEntries? (flowNode? fuel "") true (rest.length + 1) anchors [] rest
      let node ← tableOf? members
      some ⟨node, rest, anchors⟩
    | '*' :: rest => alias? anchors rest
    | '\'' :: _ | '"' :: _ =>
      (quoted? cs).map fun r ↦ ⟨⟨.text (String.ofList r.1), []⟩, r.2, anchors⟩
    | c :: _ =>
      if c = '&' ∨ c = '!' then do
        let (mark, rest) ← mark? cs
        let tag := match mark with
          | .tag name => name
          | .anchor _ => tag
        let rest := skipLoose true false rest
        if (rest.head?).any fun c ↦ c = ',' ∨ c = ']' ∨ c = '\x7d' then
          (bare? tag rest anchors).map (withMark mark)
        else (flowNode? fuel tag anchors rest).map (withMark mark)
      else if startsPlain true cs then do
        let (s, rest) := flowPlain (cs.length + 1) cs
        let d ← resolveAs? tag s
        some ⟨⟨d, []⟩, rest, anchors⟩
      else none

/-! ### Block -/

/-- What stands behind a colon or a dash: something on the same line, or on lines below that are
indented deeper than `parent`, or nothing. `column` is the column behind the colon or dash. -/
def inner? (node : Int → Nat → Bool → Anchors → List Char → Option Found) (parent column : Nat)
    (fresh listToo : Bool) (anchors : Anchors) (cs : List Char) : Option Found :=
  match lineEnd? cs with
  | none =>
    let blanks := cs.takeWhile isBlank
    node parent (column + blanks.length) (fresh && blanks.all (· == ' ')) anchors (skipBlank cs)
  | some rest =>
    match nextContent 0 true rest with
    | (_, []) => some ⟨⟨.empty, []⟩, rest, anchors⟩
    | (indent, next) =>
      if parent < indent ∨ (listToo ∧ parent = indent ∧ isEntry next = true) then
        node (if parent < indent then parent else parent - 1) indent true anchors next
      else some ⟨⟨.empty, []⟩, rest, anchors⟩

/-- A key with a mark of its own, which stands at a column, and its value. That stands behind a
colon below the mark; without one there is none. -/
def markedMember? (node : Int → Nat → Bool → Anchors → List Char → Option Found) (column : Nat)
    (anchors : Anchors) (cs : List Char) : Option (Datum × Found) := do
  let key ← inner? node column (column + 1) true true anchors (cs.drop 1)
  match nextContent 0 true key.rest with
  | (indent, ':' :: rest) =>
    if indent = column ∧ atGap rest = true then
      (inner? node column (column + 1) true true key.anchors rest).map fun v ↦ (key.node.datum, v)
    else some (key.node.datum, { key with node := ⟨.empty, []⟩ })
  | _ => some (key.node.datum, { key with node := ⟨.empty, []⟩ })

/-- A member of a block table whose keys stand at a column. -/
def blockMember? (node : Int → Nat → Bool → Anchors → List Char → Option Found) (column : Nat)
    (anchors : Anchors) (cs : List Char) : Option (Datum × Found) :=
  if isMarkedKey cs then markedMember? node column anchors cs
  else do
    let (key, rest) ← key? cs
    let width := (cs.takeWhile (· != '\n')).length - (rest.takeWhile (· != '\n')).length
    let value ← inner? node column (column + width) false true anchors rest
    some (key, value)

/-- The members of a block table whose keys stand at a column. -/
def blockMembers? (node : Int → Nat → Bool → Anchors → List Char → Option Found) (column : Nat) :
    Nat → Anchors → List (Datum × Datum) → List Char →
    Option (List (Datum × Datum) × List Char × Anchors)
  | 0, _, _, _ => none
  | fuel + 1, anchors, members, cs => do
    let (key, value) ← blockMember? node column anchors cs
    let members := members ++ [(key, value.node.datum)]
    match nextContent 0 true value.rest with
    | (_, []) => some (members, value.rest, value.anchors)
    | (indent, next) =>
      if indent = column then blockMembers? node column fuel value.anchors members next
      else if indent < column then some (members, value.rest, value.anchors)
      else none

/-- The entries of a block list whose dashes stand at a column. -/
def blockEntries? (node : Int → Nat → Bool → Anchors → List Char → Option Found) (column : Nat) :
    Nat → Anchors → List Char → Option (List Char × Anchors)
  | 0, _, _ => none
  | fuel + 1, anchors, cs => do
    let value ← inner? node column (column + 1) true false anchors (cs.drop 1)
    match nextContent 0 true value.rest with
    | (_, []) => some (value.rest, value.anchors)
    | (indent, next) =>
      if indent = column then
        if isEntry next then blockEntries? node column fuel value.anchors next
        else some (value.rest, value.anchors)
      else if indent < column then some (value.rest, value.anchors)
      else none

/-- A scalar or flow node ends its line. -/
def closed? (f : Found) : Option Found := (lineEnd? f.rest).map fun rest ↦ { f with rest := rest }

/-- A node inside one of indentation `parent`. On a line of its own (`fresh`) it may be a block
collection, whose column is then `column`. -/
def node? : Nat → String → Int → Nat → Bool → Anchors → List Char → Option Found
  | 0, _, _, _, _, _, _ => none
  | fuel + 1, tag, parent, column, fresh, anchors, cs =>
    if isEntry cs then
      if fresh then do
        let (rest, anchors) ←
          blockEntries? (node? fuel "") column (cs.length + 1) anchors cs
        some ⟨⟨.list, []⟩, rest, anchors⟩
      else none
    else if fresh && (isMarkedKey cs || (key? cs).isSome) then do
      let (members, rest, anchors) ←
        blockMembers? (node? fuel "") column (cs.length + 1) anchors [] cs
      let node ← tableOf? members
      some ⟨node, rest, anchors⟩
    else
      match cs with
      | [] => none
      | '|' :: rest => (block? false parent rest).map fun r ↦
          ⟨⟨.text (String.ofList r.1), []⟩, r.2, anchors⟩
      | '>' :: rest => (block? true parent rest).map fun r ↦
          ⟨⟨.text (String.ofList r.1), []⟩, r.2, anchors⟩
      | c :: _ =>
        if c = '&' ∨ c = '!' then do
          let (mark, rest) ← mark? cs
          let tag := match mark with
            | .tag name => name
            | .anchor _ => tag
          let found ← match lineEnd? rest with
            | some rest =>
              match nextContent 0 true rest with
              | (_, []) => bare? tag rest anchors
              | (indent, next) =>
                if parent < indent then node? fuel tag parent indent true anchors next
                else bare? tag rest anchors
            | none => node? fuel tag parent column fresh anchors (skipBlank rest)
          some (withMark mark found)
        else if startsPlain false cs then do
          let (s, rest) ← plainLines? parent (cs.length + 1) cs
          let d ← resolveAs? tag s
          closed? ⟨⟨d, []⟩, rest, anchors⟩
        else do
          let found ← flowNode? (cs.length + 1) tag anchors cs
          closed? found

/-! ### Documents -/

/-- Line breaks of all kinds as one. -/
def normalised : List Char → List Char
  | [] => []
  | '\r' :: '\n' :: cs => '\n' :: normalised cs
  | c :: cs => (if c = '\r' then '\n' else c) :: normalised cs

def isMarker (mark : String) (line : List Char) : Bool :=
  match Reader.after? mark line with
  | some rest => atGap rest
  | none => false

/-- Whether a line outside all documents belongs to none. -/
def isIdle (line : List Char) : Bool :=
  match skipBlank line with
  | [] => true
  | c :: _ => c = '#' ∨ line.head? = some '%'

/-- Splits lines into documents, each without its markers. -/
def split (current : Option (List (List Char))) : List (List Char) → List (List (List Char))
  | [] => current.toList
  | line :: rest =>
    if isMarker "---" line then
      current.toList ++ split (some [' ' :: ' ' :: ' ' :: line.drop 3]) rest
    else if isMarker "..." line then current.toList ++ split none rest
    else
      match current with
      | none => if isIdle line then split none rest else split (some [line]) rest
      | some lines => split (some (lines ++ [line])) rest

/-- The one node of a document. -/
def root? (cs : List Char) : Option Node :=
  match nextContent 0 false cs with
  | (_, []) => some ⟨.empty, []⟩
  | (indent, content) => do
    let found ← node? (content.length + 1) "" (-1) indent true [] content
    match nextContent 0 true found.rest with
    | (_, []) => some found.node
    | _ => none

/-- The name that a key gives to a setting; only text and integers give one. -/
def keyName? : Datum → Option String
  | .text s => some s
  | .integer n => some (Decimal.text n.toInt)
  | _ => none

def document? (cs : List Char) : Option Document :=
  match split none (linesOf (normalised cs)) with
  | [] => some []
  | [lines] =>
    match root? (joinLines lines) with
    | some ⟨.table, members⟩ =>
      some (Document.ofMembers (members.filterMap fun (key, d) ↦ (keyName? key).map fun k ↦ (k, d)))
    | _ => none
  | _ => none

end Bundling.Yaml
