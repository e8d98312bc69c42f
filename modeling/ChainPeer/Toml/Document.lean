import ChainPeer.Toml.Quotation

/-!
# TOML documents

A document is a list of statements, each on lines of its own: headers, which open tables, and
entries, which are added to the table opened last. Keys may have up to 79 parts, and arrays and
inline tables may be nested as deep.
-/

namespace ChainPeer.Toml

/-- The most parts a key may have, and the deepest nesting of values. -/
def maxDepth : Nat := 79

/-- Whether a character may stand in a key without quotes. -/
def isBare (c : Char) : Bool :=
  c.isAlphanum || c = '_' || c = '-'

def keyPart? : Scan String := fun text =>
  match text with
  | '"' :: _ => quotedLine? text
  | '\'' :: _ => quotedLine? text
  | _ =>
    let bare := text.takeWhile isBare
    if bare = [] then none else some (String.ofList bare, text.drop bare.length)

/-- Reads a key of at most `room` parts: its path, its last part, and the text after the blank
characters behind it. -/
def key? : (room : Nat) → Scan (List String × String)
  | 0, _ => none
  | room + 1, text => do
    let (part, rest) ← keyPart? (skipSpace text)
    match skipSpace rest with
    | '.' :: rest => do
      let ((path, last), rest) ← key? room rest
      pure ((part :: path, last), rest)
    | rest => pure (([], part), rest)

def skipComment (text : List Char) : List Char :=
  match text with
  | '#' :: rest => rest.dropWhile isPlain
  | _ => text

/-- The text after the blank characters, comments and line ends in front. -/
def skipLines : Nat → List Char → List Char
  | 0, text => text
  | fuel + 1, text =>
    match lineEnd? (skipComment (skipSpace text)) with
    | some rest => skipLines fuel rest
    | none => skipSpace text

def items? (item? : Scan Value) : Nat → List Value → Scan (List Value)
  | 0, _, _ => none
  | fuel + 1, seen, text =>
    match skipLines (text.length + 1) text with
    | ']' :: rest => some (seen.reverse, rest)
    | text => do
      let (v, rest) ← item? text
      match skipLines (rest.length + 1) rest with
      | ',' :: rest => items? item? fuel (v :: seen) rest
      | ']' :: rest => some ((v :: seen).reverse, rest)
      | _ => none

def entry? (value? : Scan Value) : Scan ((List String × String) × Value) := fun text => do
  let (key, rest) ← key? maxDepth text
  let rest ← mark? '=' rest
  let (v, rest) ← value? (skipSpace rest)
  pure ((key, v), rest)

/-- Reads the entries of an inline table, at least one, up to its end. -/
def inlineEntries? (value? : Scan Value) : Nat → Table → Scan Value
  | 0, _, _ => none
  | fuel + 1, t, text => do
    let (((path, key), v), rest) ← entry? value? text
    let t ← t.add path key v
    match skipSpace rest with
    | ',' :: rest => inlineEntries? value? fuel t rest
    | '\x7d' :: rest => some (t.toValue, rest)
    | _ => none

def inlineTable? (value? : Scan Value) : Scan Value := fun text =>
  match skipSpace text with
  | '\x7d' :: rest => some (.table .inline [], rest)
  | text => inlineEntries? value? (text.length + 1) ⟨.inline, []⟩ text

def numeric? : Scan Value := fun text =>
  match dateTime? text with
  | some found => some found
  | none => number? text

/-- Reads a value in which arrays and inline tables are nested at most `room` deep. -/
def value? : (room : Nat) → Scan Value
  | 0, text =>
    match text with
    | '"' :: _ => (quotedText? text).map fun (s, rest) => (.string s, rest)
    | '\'' :: _ => (quotedText? text).map fun (s, rest) => (.string s, rest)
    | 't' :: 'r' :: 'u' :: 'e' :: rest => some (.boolean true, rest)
    | 'f' :: 'a' :: 'l' :: 's' :: 'e' :: rest => some (.boolean false, rest)
    | text => numeric? text
  | room + 1, text =>
    match text with
    | '[' :: rest =>
      (items? (value? room) (rest.length + 1) [] rest).map fun (vs, rest) => (.array vs, rest)
    | '\x7b' :: rest => inlineTable? (value? room) rest
    | text => value? room text

inductive Statement where
  | table (path : List String) (key : String)
  | next (path : List String) (key : String)
  | entry (path : List String) (key : String) (v : Value)

def statement? : Scan Statement
  | '[' :: '[' :: rest => do
    let ((path, key), rest) ← key? maxDepth rest
    let rest ← mark? ']' rest
    let rest ← mark? ']' rest
    pure (.next path key, rest)
  | '[' :: rest => do
    let ((path, key), rest) ← key? maxDepth rest
    let rest ← mark? ']' rest
    pure (.table path key, rest)
  | text => do
    let (((path, key), v), rest) ← entry? (value? maxDepth) text
    pure (.entry path key v, rest)

def statements? : Nat → List Statement → List Char → Option (List Statement)
  | 0, _, _ => none
  | fuel + 1, seen, text =>
    match skipComment (skipSpace text) with
    | [] => some seen.reverse
    | rest =>
      match lineEnd? rest with
      | some rest => statements? fuel seen rest
      | none => do
        let (s, rest) ← statement? (skipSpace text)
        match skipComment (skipSpace rest) with
        | [] => some (s :: seen).reverse
        | rest => do
          let rest ← lineEnd? rest
          statements? fuel (s :: seen) rest

/-- A document under construction: its root table, and the path of the table opened last. -/
structure Draft where
  root : Table
  opened : List String

def Draft.apply (d : Draft) : Statement → Option Draft
  | .table path key => do
    let root ← d.root.openTable path key
    pure ⟨root, path ++ [key]⟩
  | .next path key => do
    let root ← d.root.openNext path key
    pure ⟨root, path ++ [key]⟩
  | .entry path key v => do
    let root ← d.root.within false d.opened (Table.add path key v)
    pure { d with root }

/-- The entries of the root table of a document. A mark of the byte order may lead the text. -/
def ofText? (text : String) : Option (List (String × Value)) := do
  let text := match text.toList with
    | '\ufeff' :: rest => rest
    | text => text
  let statements ← statements? (text.length + 1) [] text
  let draft ← statements.foldlM Draft.apply ⟨⟨.header, []⟩, []⟩
  pure draft.root.entries

end ChainPeer.Toml
