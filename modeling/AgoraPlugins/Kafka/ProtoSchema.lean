import AgoraPlugins.Kafka.ProtoTokens

/-!
# Messages of a protobuf schema

The schema registry names a message by the path of its indexes within the schema's text, and
the name it resolves to is checked against the local message class. The text is not parsed:
its words are scanned for the keywords that open a block, and its braces are matched.

Here is the scan, as the code has it, and beside it the grammar of protobuf (`Body`,
`Schema`), to the depth that decides which messages a text declares: messages and groups
within each other, within `oneof` and `extend` blocks, between fields, options, ranges, enum
values and services, with option values in braces wherever the language has them.

The scan takes a keyword for a keyword wherever it stands. A field may be called `message`,
and an option `package`; then the scan is misled, unless what follows puts it right again.
When it is, is followed word by word (`Reading`, `read`): a schema that nothing misleads
resolves every path to its package and to the names along the path.
-/

namespace ProtoSchema

open ProtoTokens

/-! ## The scan for messages -/

/-- `_PROTO_BLOCK_KEYWORDS`. -/
inductive BlockKind where
  | message
  | enum
  | oneof
  | service
  | extend
  | group
  deriving DecidableEq

def BlockKind.keyword : BlockKind → Token
  | .message => "message".toList
  | .enum => "enum".toList
  | .oneof => "oneof".toList
  | .service => "service".toList
  | .extend => "extend".toList
  | .group => "group".toList

/-- Its block is a message. -/
def BlockKind.isMessage : BlockKind → Bool
  | .message => true
  | .group => true
  | _ => false

/-- The keyword a token is. -/
def blockKeyword (token : Token) : Option BlockKind :=
  [BlockKind.message, .enum, .oneof, .service, .extend, .group].find?
    (fun k => k.keyword = token)

def packageKeyword : Token := "package".toList

/-- **`_ProtoMessageNode`**: a message with those declared in it. -/
structure ProtoMessageNode where
  name : Token
  children : List ProtoMessageNode

/-- **The variables of `parse_proto_message_tree`.** A message on the stack has its name and
the children it has so far; it joins its parent when it is closed, since nothing looks at it
before. -/
structure Scan where
  packageName : Token := []
  rootMessages : List ProtoMessageNode := []
  messageStack : List (Token × List ProtoMessageNode) := []
  /-- The kinds of the open braces; `none` is `"block"`. -/
  braceStack : List (Option BlockKind) := []
  pendingBlockKind : Option BlockKind := none
  pendingMessageName : Option Token := none

namespace Scan

/-- Messages join the innermost open one. -/
def adopt (s : Scan) (nodes : List ProtoMessageNode) : Scan :=
  match s.messageStack with
  | [] => { s with rootMessages := s.rootMessages ++ nodes }
  | (name, children) :: stack =>
    { s with messageStack := (name, children ++ nodes) :: stack }

/-- The block that was announced has begun, or has not. -/
def clearPending (s : Scan) : Scan :=
  { s with pendingBlockKind := none, pendingMessageName := none }

/-- The branch of an opening brace. -/
def openBrace (s : Scan) : Except String Scan :=
  match s.pendingBlockKind with
  | some kind =>
    if kind.isMessage then
      match s.pendingMessageName with
      | none => .error "Malformed protobuf schema: message block is missing a name."
      | some name =>
        .ok { s.clearPending with
          messageStack := (name, []) :: s.messageStack
          braceStack := some kind :: s.braceStack }
    else .ok { s.clearPending with braceStack := some kind :: s.braceStack }
  | none => .ok { s.clearPending with braceStack := none :: s.braceStack }

/-- `message_stack.pop()`. -/
def popMessage (s : Scan) : Scan :=
  match s.messageStack with
  | [] => s
  | (name, children) :: stack =>
    { s with messageStack := stack }.adopt [⟨name, children⟩]

/-- The branch of a closing brace. -/
def closeBrace (s : Scan) : Except String Scan :=
  match s.braceStack with
  | [] => .error "Malformed protobuf schema: unmatched closing brace."
  | kind :: braces =>
    let closed := { s.clearPending with braceStack := braces }
    .ok (if kind.any BlockKind.isMessage then closed.popMessage else closed)

end Scan

mutual

/-- **The loop of `parse_proto_message_tree`.** -/
def scanTokens (s : Scan) : List Token → Except String Scan
  | [] => .ok s
  | token :: tokens =>
    if token = packageKeyword then
      skipToSemicolon { s with packageName := tokens.head?.getD s.packageName } tokens
    else
      match blockKeyword token with
      | some kind => readBlockName kind s tokens
      | none =>
        if token = ['\x7b'] then
          match s.openBrace with
          | .error message => .error message
          | .ok s => scanTokens s tokens
        else if token = ['\x7d'] then
          match s.closeBrace with
          | .error message => .error message
          | .ok s => scanTokens s tokens
        else scanTokens s tokens

/-- A block's keyword takes the next token along as its name. -/
def readBlockName (kind : BlockKind) (s : Scan) : List Token → Except String Scan
  | [] => .ok { s with pendingBlockKind := some kind, pendingMessageName := none }
  | name :: tokens =>
    scanTokens { s with pendingBlockKind := some kind, pendingMessageName := some name } tokens

/-- The inner loop, which runs to the end of the package statement. -/
def skipToSemicolon (s : Scan) : List Token → Except String Scan
  | [] => .ok s
  | token :: tokens =>
    if token = [';'] then scanTokens s tokens else skipToSemicolon s tokens

end

/-- **`parse_proto_message_tree`.** -/
def parseProtoMessageTree (unicodeWord : Char → Bool) (schemaText : List Char) :
    Except String (Token × List ProtoMessageNode) := do
  let tokenStream ← tokenizeProtoSchema unicodeWord schemaText
  let s ← scanTokens {} tokenStream
  if s.braceStack ≠ [] then .error "Malformed protobuf schema: unclosed block."
  else if s.rootMessages.isEmpty then
    .error "Malformed protobuf schema: no message definitions found."
  else .ok (s.packageName, s.rootMessages)

/-- `repr` of a tuple of integers. -/
def reprIndexes : List ℤ → String
  | [index] => "(" ++ toString index ++ ",)"
  | indexes => "(" ++ ", ".intercalate (indexes.map toString) ++ ")"

/-- The loop of `resolve_proto_message_full_name`: the names along the path. -/
def walk (path : List ℤ) : List ProtoMessageNode → List ℤ → Except String (List Token)
  | _, [] => .ok []
  | siblings, index :: indexes =>
    match if 0 ≤ index then siblings[index.toNat]? else none with
    | none =>
      .error ("Protobuf schema-registry message index " ++ toString index
        ++ " is out of range for path " ++ reprIndexes path ++ ".")
    | some node => (walk path node.children indexes).map (node.name :: ·)

/-- `".".join`. -/
def joinDots (names : List Token) : Token := ['.'].intercalate names

/-- The name of the message at the end of a path of names. -/
def fullName (packageName : Token) (path : List Token) : Token :=
  if packageName = [] then joinDots path else joinDots (packageName :: path)

/-- **`resolve_proto_message_full_name`.** -/
def resolveProtoMessageFullName (unicodeWord : Char → Bool) (schemaText : List Char)
    (messageIndexes : List ℤ) : Except String Token := do
  let (packageName, rootMessages) ← parseProtoMessageTree unicodeWord schemaText
  if messageIndexes = [] then
    .error "Protobuf schema-registry message indexes cannot be empty."
  else
    let path ← walk messageIndexes rootMessages messageIndexes
    .ok (fullName packageName path)

/-! ## The grammar -/

/-- **Lexemes in which every brace has its partner**: an option's value, or anything else that
declares nothing. -/
inductive Balanced where
  | done
  | plain (p : Plain) (rest : Balanced)
  | braces (inner rest : Balanced)

namespace Balanced

def ofPlains (ps : List Plain) : Balanced := ps.foldr .plain .done

def append : Balanced → Balanced → Balanced
  | .done, b => b
  | .plain p rest, b => .plain p (rest.append b)
  | .braces inner rest, b => .braces inner (rest.append b)

end Balanced

/-- A dotted name is written as words and as dots that stand apart. -/
inductive Piece where
  | dot
  | word (w : Word)

def Piece.plain : Piece → Plain
  | .dot => .symbol ⟨'.', by decide⟩
  | .word w => .word w

/-- **A name with dots in it**, in the pieces in which it is written. -/
abbrev DottedName := List Piece

def DottedName.plains (name : DottedName) : List Plain := name.map Piece.plain

def equals : Plain := .symbol ⟨'=', by decide⟩
def comma : Plain := .symbol ⟨',', by decide⟩
def minus : Plain := .symbol ⟨'-', by decide⟩
def openParen : Plain := .symbol ⟨'(', by decide⟩
def closeParen : Plain := .symbol ⟨')', by decide⟩
def openAngle : Plain := .symbol ⟨'<', by decide⟩
def closeAngle : Plain := .symbol ⟨'>', by decide⟩
def openBracket : Plain := .symbol ⟨'[', by decide⟩
def closeBracket : Plain := .symbol ⟨']', by decide⟩

/-- Options in brackets, where there are any. -/
def bracketed : Option Balanced → Balanced
  | none => .done
  | some options => .plain openBracket (options.append (.ofPlains [closeBracket]))

/-- **What a schema says without declaring a block.** -/
inductive Statement where
  | syntaxVersion (version : Quoted)
  | importFile (modifier : Option Word) (file : Quoted)
  | option (name : List Plain) (value : Balanced)
  | field (label : Option Word) (type : DottedName) (name : Word) (number : Number)
      (options : Option Balanced)
  | mapField (key : Word) (value : DottedName) (name : Word) (number : Number)
      (options : Option Balanced)
  | extensions (ranges : List Plain) (options : Option Balanced)
  | reserved (ranges : List Plain)
  | enumValue (name : Word) (negative : Bool) (number : Number) (options : Option Balanced)
  /-- With a body, or with a semicolon. -/
  | rpc (name : Word) (streamsIn : Bool) (input : DottedName) (streamsOut : Bool)
      (output : DottedName) (body : Option Balanced)
  | empty

namespace Statement

/-- The type of an rpc's input or output. -/
def messageType (streams : Bool) (type : DottedName) : List Plain :=
  openParen :: (if streams then [.word ⟨"stream".toList, by decide⟩] else [])
    ++ type.plains ++ [closeParen]

/-- A name, its number, options and the end. -/
def numbered (name : Word) (number : Number) (options : Option Balanced) : Balanced :=
  (Balanced.ofPlains [.word name, equals, .number number]).append
    ((bracketed options).append (.ofPlains [.semicolon]))

/-- **How a statement is written.** -/
def content : Statement → Balanced
  | .syntaxVersion version =>
    .ofPlains [.word ⟨"syntax".toList, by decide⟩, equals, .string version, .semicolon]
  | .importFile modifier file =>
    .ofPlains (.word ⟨"import".toList, by decide⟩ :: modifier.toList.map Plain.word
      ++ [.string file, .semicolon])
  | .option name value =>
    (Balanced.ofPlains (.word ⟨"option".toList, by decide⟩ :: name ++ [equals])).append
      (value.append (.ofPlains [.semicolon]))
  | .field label type name number options =>
    (Balanced.ofPlains (label.toList.map Plain.word ++ type.plains)).append
      (numbered name number options)
  | .mapField key value name number options =>
    (Balanced.ofPlains (.word ⟨"map".toList, by decide⟩ :: openAngle :: .word key :: comma ::
      value.plains ++ [closeAngle])).append (numbered name number options)
  | .extensions ranges options =>
    (Balanced.ofPlains (.word ⟨"extensions".toList, by decide⟩ :: ranges)).append
      ((bracketed options).append (.ofPlains [.semicolon]))
  | .reserved ranges =>
    .ofPlains (.word ⟨"reserved".toList, by decide⟩ :: ranges ++ [.semicolon])
  | .enumValue name negative number options =>
    (Balanced.ofPlains (.word name :: equals :: (if negative then [minus] else [])
      ++ [.number number])).append ((bracketed options).append (.ofPlains [.semicolon]))
  | .rpc name streamsIn input streamsOut output body =>
    (Balanced.ofPlains (.word ⟨"rpc".toList, by decide⟩ :: .word name ::
      messageType streamsIn input ++ .word ⟨"returns".toList, by decide⟩ ::
      messageType streamsOut output)).append
      (match body with
      | none => .ofPlains [.semicolon]
      | some options => .braces options .done)
  | .empty => .ofPlains [.semicolon]

end Statement

/-- **What stands before a declared block.** Of the name of an extended message, `more` has
what is written apart. -/
structure Header where
  label : Option Word
  kind : BlockKind
  leadingDot : Bool
  name : Word
  more : Balanced

namespace Header

def message (name : Word) : Header := ⟨none, .message, false, name, .done⟩

def enum (name : Word) : Header := ⟨none, .enum, false, name, .done⟩

def oneof (name : Word) : Header := ⟨none, .oneof, false, name, .done⟩

def service (name : Word) : Header := ⟨none, .service, false, name, .done⟩

/-- `extend Name`, where the name may have dots in it, also before its first word. -/
def extend (leadingDot : Bool) (first : Word) (more : DottedName) : Header :=
  ⟨none, .extend, leadingDot, first, .ofPlains more.plains⟩

/-- `label group Name = number`, with options or without. -/
def group (label : Option Word) (name : Word) (number : Number) (options : Option Balanced) :
    Header :=
  ⟨label, .group, false, name,
    (Balanced.ofPlains [equals, .number number]).append (bracketed options)⟩

end Header

/-- **The declarations of a block or of a file.** Which of them the language has at a place is
not restated: nothing here depends on it. -/
inductive Body where
  | done
  | statement (s : Statement) (rest : Body)
  | block (header : Header) (body rest : Body)

/-- **The messages that are declared**, in the order of their declarations. A group declares
one; what is declared in a `oneof` or an `extend` block belongs to the message around it. -/
def Body.messages : Body → List ProtoMessageNode
  | .done => []
  | .statement _ rest => rest.messages
  | .block header body rest =>
    (if header.kind.isMessage then [⟨header.name.chars, body.messages⟩] else body.messages)
      ++ rest.messages

/-- **The name of a package**, in the pieces in which it is written. -/
structure PackageName where
  first : Word
  more : DottedName

/-- **A schema.** The package statement may stand anywhere between the other declarations. -/
structure Schema where
  before : Body
  package : Option PackageName
  after : Body

/-- The names along a path of indexes, where there is such a path. -/
def namesAt : List ProtoMessageNode → List ℕ → Option (List Token)
  | _, [] => some []
  | nodes, index :: path =>
    match nodes[index]? with
    | none => none
    | some node => (namesAt node.children path).map (node.name :: ·)

namespace Schema

/-- The messages that a schema declares, one inside the other. -/
def messages (schema : Schema) : List ProtoMessageNode :=
  schema.before.messages ++ schema.after.messages

end Schema

def Piece.chars : Piece → List Char
  | .dot => ['.']
  | .word w => w.chars

def PackageName.chars (name : PackageName) : Token :=
  name.first.chars ++ name.more.flatMap Piece.chars

/-- **The package, where there is one, and the names.** -/
def Schema.qualified (schema : Schema) (names : List Token) : Token :=
  ['.'].intercalate (schema.package.toList.map PackageName.chars ++ names)

/-! ## Texts of a schema -/

/-- A lexeme and what it is there for. -/
inductive Mark where
  | plain (p : Plain)
  /-- The keyword of a block that is declared here. -/
  | keyword (kind : BlockKind)
  /-- The brace of the block that has been declared, or another one. -/
  | enter (own : Option BlockKind)
  | leave

theorem BlockKind.isWord_keyword (kind : BlockKind) : isWord kind.keyword = true := by
  cases kind <;> decide

def Mark.lexeme : Mark → Lexeme
  | .plain p => .plain p
  | .keyword kind => .plain (.word ⟨kind.keyword, kind.isWord_keyword⟩)
  | .enter _ => .openBrace
  | .leave => .closeBrace

/-- The marks of tokens in which braces match. -/
def Balanced.marks : Balanced → List Mark
  | .done => []
  | .plain p rest => .plain p :: rest.marks
  | .braces inner rest => .enter none :: (inner.marks ++ .leave :: rest.marks)

/-- The marks of a header: its keyword is one that announces a block. -/
def Header.marks (header : Header) : List Mark :=
  (Balanced.ofPlains (header.label.toList.map Plain.word)).marks ++ .keyword header.kind ::
    ((Balanced.ofPlains (if header.leadingDot then [Piece.dot.plain] else [])).marks ++
      .plain (.word header.name) :: header.more.marks)

/-- **The marks of a body**, statement after statement and block after block. -/
def Body.marks : Body → List Mark
  | .done => []
  | .statement s rest => s.content.marks ++ rest.marks
  | .block header body rest =>
    header.marks ++ .enter (some header.kind) :: (body.marks ++ .leave :: rest.marks)

def PackageName.plains (name : PackageName) : List Plain :=
  .word ⟨"package".toList, by decide⟩ :: .word name.first :: name.more.plains ++ [.semicolon]

/-- **How a schema is written**, up to blanks and comments. -/
def Schema.lexemes (schema : Schema) : List Lexeme :=
  schema.before.marks.map Mark.lexeme ++
    (schema.package.toList.flatMap PackageName.plains).map Lexeme.plain ++
      schema.after.marks.map Mark.lexeme

/-! ## Where a name misleads the scan -/

/-- The block keyword that was read last and has not met its brace. -/
inductive Pending where
  | nothing
  /-- That of a declared block, with the block's name. -/
  | declared (kind : BlockKind) (name : Token)
  /-- A name that is spelled like a keyword. -/
  | stray (kind : BlockKind)

/-- **How far a text has been read**: what is pending, and how the next token is taken. -/
inductive Reading where
  | words (pending : Pending)
  /-- A declared block's name comes next. -/
  | blockName (kind : BlockKind)
  /-- A name spelled like a block's keyword takes the next token along. -/
  | taken (kind : BlockKind)
  /-- A name spelled `package` takes everything along up to a semicolon. -/
  | skipped (pending : Pending)

section

variable (due : Bool)

/-- **A word, or a semicolon.** A name spelled `package` is made up for by a package statement,
if one is `due`. -/
def readToken : Reading → Token → Option Reading
  | .words pending, token =>
    if token = packageKeyword then if due then some (.skipped pending) else none
    else
      match blockKeyword token with
      | some kind => some (.taken kind)
      | none => some (.words pending)
  | .blockName kind, token => some (.words (.declared kind token))
  | .taken kind, _ => some (.words (.stray kind))
  | .skipped pending, token =>
    if token = [';'] then some (.words pending) else some (.skipped pending)

/-- **One mark.** A declared block's brace needs its keyword to be the last one; any other
opening brace needs that the last one is of no message. No brace may be taken along. -/
def readMark : Reading → Mark → Option Reading
  | reading, .plain p => p.tokens.foldlM (readToken due) reading
  | .words _, .keyword kind => some (.blockName kind)
  | .words (.declared kind _), .enter (some own) =>
    if kind = own then some (.words .nothing) else none
  | .words .nothing, .enter none => some (.words .nothing)
  | .words (.stray kind), .enter none => if kind.isMessage then none else some (.words .nothing)
  | .words _, .leave => some (.words .nothing)
  | _, _ => none

def read : Reading → List Mark → Option Reading
  | reading, [] => some reading
  | reading, mark :: marks =>
    match readMark due reading mark with
    | none => none
    | some reading => read reading marks

theorem read_append {reading reading' : Reading} {ms ms' : List Mark}
    (h : read due reading (ms ++ ms') = some reading') :
    ∃ middle, read due reading ms = some middle ∧ read due middle ms' = some reading' := by
  induction ms generalizing reading with
  | nil => exact ⟨reading, rfl, h⟩
  | cons m ms ih =>
    rw [List.cons_append, read] at h
    match hm : readMark due reading m with
    | none =>
      rw [hm] at h
      cases h
    | some next =>
      rw [hm] at h
      obtain ⟨middle, hfirst, hlast⟩ := ih h
      refine ⟨middle, ?_, hlast⟩
      rw [read, hm]
      exact hfirst

theorem read_cons {reading reading' : Reading} {m : Mark} {ms : List Mark}
    (h : read due reading (m :: ms) = some reading') :
    ∃ next, readMark due reading m = some next ∧ read due next ms = some reading' := by
  rw [read] at h
  match hm : readMark due reading m with
  | none =>
    rw [hm] at h
    cases h
  | some next =>
    rw [hm] at h
    exact ⟨next, rfl, h⟩

end

/-- **Nothing misleads the scan**: between the declarations no keyword is left that takes
something along, and up to there the reading never fails. -/
def Schema.unmisled (schema : Schema) : Bool :=
  match read schema.package.isSome (.words .nothing) schema.before.marks with
  | some (.words pending) => (read false (.words pending) schema.after.marks).isSome
  | _ => false

/-- The package's name, where there is one, is written in one piece. -/
def Schema.packageInOnePiece (schema : Schema) : Bool :=
  schema.package.all (fun name => name.more.isEmpty)

/-! ## The scan of a declared block -/

/-- How the scan goes on where the reading stands. -/
def resume : Reading → Scan → List Token → Except String Scan
  | .words _ => scanTokens
  | .blockName kind => readBlockName kind
  | .taken kind => readBlockName kind
  | .skipped _ => skipToSemicolon

/-- What the scan has noted is what was announced. -/
def Pending.Matches : Pending → Scan → Prop
  | .nothing, s => s.pendingBlockKind = none
  | .declared kind name, s =>
    s.pendingBlockKind = some kind ∧ s.pendingMessageName = some name
  | .stray kind, s => s.pendingBlockKind = some kind

/-- What the scan has pending is what the reading has. -/
def Reading.Matches : Reading → Scan → Prop
  | .words pending, s => pending.Matches s
  | .skipped pending, s => pending.Matches s
  | _, _ => True

/-- The scan has the same messages and the same open braces, and the same package unless the
package statement is still to come. -/
structure Agree (due : Bool) (s s' : Scan) : Prop where
  rootMessages : s'.rootMessages = s.rootMessages
  messageStack : s'.messageStack = s.messageStack
  braceStack : s'.braceStack = s.braceStack
  packageName : due = false → s'.packageName = s.packageName

namespace Agree

variable {due : Bool} {s s' s'' : Scan}

theorem refl (s : Scan) : Agree due s s := ⟨rfl, rfl, rfl, fun _ => rfl⟩

theorem trans (h : Agree due s s') (h' : Agree due s' s'') : Agree due s s'' :=
  ⟨h'.rootMessages.trans h.rootMessages, h'.messageStack.trans h.messageStack,
    h'.braceStack.trans h.braceStack,
    fun hdue => (h'.packageName hdue).trans (h.packageName hdue)⟩

/-- Messages that are adopted make no difference to it. -/
theorem adopt (h : Agree due s s') (nodes : List ProtoMessageNode) :
    Agree due (s.adopt nodes) (s'.adopt nodes) := by
  obtain ⟨hroot, hstack, hbrace, hpackage⟩ := h
  unfold Scan.adopt
  rw [hstack]
  split
  · exact ⟨by simp [hroot], rfl, hbrace, hpackage⟩
  · exact ⟨hroot, rfl, hbrace, hpackage⟩

end Agree

theorem Scan.adopt_nil (s : Scan) : s.adopt [] = s := by
  obtain ⟨package, roots, stack, braces, kind, name⟩ := s
  match stack with
  | [] => simp [Scan.adopt]
  | (n, children) :: stack => simp [Scan.adopt]

/-- Messages are adopted one after the other. -/
theorem Scan.adopt_append (s : Scan) (nodes nodes' : List ProtoMessageNode) :
    s.adopt (nodes ++ nodes') = (s.adopt nodes).adopt nodes' := by
  obtain ⟨package, roots, stack, braces, kind, name⟩ := s
  match stack with
  | [] => simp [Scan.adopt]
  | (n, children) :: stack => simp [Scan.adopt]

/-- Which braces are open does not depend on the messages found. -/
@[simp]
theorem Scan.braceStack_adopt (s : Scan) (nodes : List ProtoMessageNode) :
    (s.adopt nodes).braceStack = s.braceStack := by
  unfold Scan.adopt
  split <;> rfl

@[simp]
theorem Scan.packageName_adopt (s : Scan) (nodes : List ProtoMessageNode) :
    (s.adopt nodes).packageName = s.packageName := by
  unfold Scan.adopt
  split <;> rfl

section

variable {due : Bool}

/-- **One token**, if it is no brace. -/
theorem scan_token {r r' : Reading} {s : Scan} {token : Token}
    (h : readToken due r token = some r') (hs : r.Matches s) (hopen : token ≠ ['\x7b'])
    (hclose : token ≠ ['\x7d']) (tokens : List Token) :
    ∃ s', r'.Matches s' ∧ Agree due s s' ∧
      resume r s (token :: tokens) = resume r' s' tokens := by
  match r with
  | .words pending =>
    show ∃ s', r'.Matches s' ∧ Agree due s s' ∧
      scanTokens s (token :: tokens) = resume r' s' tokens
    rw [readToken] at h
    rw [scanTokens]
    split at h
    · next hpackage =>
      rw [if_pos hpackage]
      match due, h with
      | true, h =>
        obtain rfl : Reading.skipped pending = r' := by simpa using h
        refine ⟨{ s with packageName := tokens.head?.getD s.packageName }, ?_,
          ⟨rfl, rfl, rfl, nofun⟩, rfl⟩
        cases pending <;> exact hs
    · next hpackage =>
      rw [if_neg hpackage]
      split at h
      · next kind hkind =>
        cases h
        exact ⟨s, True.intro, .refl s, rfl⟩
      · next hkind =>
        cases h
        rw [if_neg hopen, if_neg hclose]
        exact ⟨s, hs, .refl s, rfl⟩
  | .blockName kind =>
    cases h
    exact ⟨{ s with pendingBlockKind := some kind, pendingMessageName := some token },
      ⟨rfl, rfl⟩, ⟨rfl, rfl, rfl, fun _ => rfl⟩, rfl⟩
  | .taken kind =>
    cases h
    exact ⟨{ s with pendingBlockKind := some kind, pendingMessageName := some token },
      rfl, ⟨rfl, rfl, rfl, fun _ => rfl⟩, rfl⟩
  | .skipped pending =>
    show ∃ s', r'.Matches s' ∧ Agree due s s' ∧
      skipToSemicolon s (token :: tokens) = resume r' s' tokens
    rw [readToken] at h
    rw [skipToSemicolon]
    split at h
    · next hend =>
      cases h
      rw [if_pos hend]
      exact ⟨s, hs, .refl s, rfl⟩
    · next hend =>
      cases h
      rw [if_neg hend]
      exact ⟨s, hs, .refl s, rfl⟩

/-- **Tokens without braces** are scanned as they are read. By induction on them, the reading and
the scan going on together. -/
theorem scan_tokens {consumed : List Token} {r r' : Reading} {s : Scan}
    (h : consumed.foldlM (readToken due) r = some r') (hs : r.Matches s)
    (hbraces : ∀ t ∈ consumed, t ≠ ['\x7b'] ∧ t ≠ ['\x7d']) (tokens : List Token) :
    ∃ s', r'.Matches s' ∧ Agree due s s' ∧
      resume r s (consumed ++ tokens) = resume r' s' tokens := by
  induction consumed generalizing r s with
  | nil =>
    cases h
    exact ⟨s, hs, .refl s, rfl⟩
  | cons t ts ih =>
    rw [List.foldlM_cons] at h
    match ht : readToken due r t with
    | none =>
      rw [ht] at h
      cases h
    | some next =>
      rw [ht] at h
      obtain ⟨hopen, hclose⟩ := hbraces t List.mem_cons_self
      obtain ⟨s₁, hs₁, hagree₁, hfirst⟩ := scan_token ht hs hopen hclose (ts ++ tokens)
      obtain ⟨s₂, hs₂, hagree₂, hrest⟩ :=
        ih h hs₁ (fun u hu => hbraces u (List.mem_cons_of_mem t hu))
      exact ⟨s₂, hs₂, hagree₁.trans hagree₂, hfirst.trans hrest⟩

/-- No word is a brace, and no number has one. -/
theorem ne_braces_of_mem_tokens {p : Plain} {t : Token} (ht : t ∈ p.tokens) :
    t ≠ ['\x7b'] ∧ t ≠ ['\x7d'] := by
  match p, ht with
  | .word w, ht =>
    obtain rfl : t = w.chars := by simpa [Plain.tokens] using ht
    have hw := w.isWord
    constructor <;>
    · intro heq
      rw [heq] at hw
      cases hw
  | .number n, ht =>
    have htail := n.tail_letters
    rw [Plain.tokens] at ht
    split at ht
    · cases ht
    · obtain rfl : t = n.tail := by simpa using ht
      constructor <;>
      · intro heq
        rw [heq] at htail
        cases htail
  | .semicolon, ht =>
    obtain rfl : t = [';'] := by simpa [Plain.tokens] using ht
    decide

theorem scan_plain {p : Plain} {r r' : Reading} {s : Scan}
    (h : readMark due r (.plain p) = some r') (hs : r.Matches s) (tokens : List Token) :
    ∃ s', r'.Matches s' ∧ Agree due s s' ∧
      resume r s (p.tokens ++ tokens) = resume r' s' tokens := by
  have hfold : p.tokens.foldlM (readToken due) r = some r' := by
    rw [readMark] at h
    exact h
  exact scan_tokens hfold hs (fun _ ht => ne_braces_of_mem_tokens ht) tokens

/-- The keyword of a kind of block is found again. -/
theorem blockKeyword_keyword (kind : BlockKind) : blockKeyword kind.keyword = some kind := by
  cases kind <;> decide

/-- **A declared block's keyword.** -/
theorem scan_keyword {kind : BlockKind} {r r' : Reading}
    (h : readMark due r (.keyword kind) = some r') (s : Scan) (tokens : List Token) :
    r' = .blockName kind ∧ resume r s (kind.keyword :: tokens) = resume r' s tokens := by
  match r, h with
  | .words pending, h =>
    cases h
    refine ⟨rfl, ?_⟩
    show scanTokens s (kind.keyword :: tokens) = readBlockName kind s tokens
    have hpackage : kind.keyword ≠ packageKeyword := by cases kind <;> decide
    rw [scanTokens, if_neg hpackage, blockKeyword_keyword]

/-- An opening brace is scanned as one. -/
theorem scanTokens_openBrace {s s' : Scan} (h : s.openBrace = .ok s') (tokens : List Token) :
    scanTokens s (['\x7b'] :: tokens) = scanTokens s' tokens := by
  have hkind : blockKeyword ['\x7b'] = none := by decide
  rw [scanTokens, if_neg (by decide), hkind, if_pos rfl, h]

theorem scanTokens_closeBrace {s s' : Scan} (h : s.closeBrace = .ok s') (tokens : List Token) :
    scanTokens s (['\x7d'] :: tokens) = scanTokens s' tokens := by
  have hkind : blockKeyword ['\x7d'] = none := by decide
  rw [scanTokens, if_neg (by decide), hkind, if_neg (by decide), if_pos rfl, h]

/-- What the scan reads of marks. -/
def tokensOf (ms : List Mark) : List Token := ms.flatMap (fun m => m.lexeme.tokens)

theorem tokensOf_append (ms ms' : List Mark) :
    tokensOf (ms ++ ms') = tokensOf ms ++ tokensOf ms' := List.flatMap_append

theorem tokensOf_cons (m : Mark) (ms : List Mark) :
    tokensOf (m :: ms) = m.lexeme.tokens ++ tokensOf ms := rfl

/-- A brace that is no declared block's. -/
theorem scan_enter {r r' : Reading} {s : Scan} (h : readMark due r (.enter none) = some r')
    (hs : r.Matches s) (tokens : List Token) :
    ∃ kind : Option BlockKind, kind.any BlockKind.isMessage = false ∧
      ∃ s', r' = .words .nothing ∧ r'.Matches s' ∧
        Agree due { s with braceStack := kind :: s.braceStack } s' ∧
        resume r s (['\x7b'] :: tokens) = resume r' s' tokens := by
  match r, h, hs with
  | .words .nothing, h, hs =>
    cases h
    have hnone : s.pendingBlockKind = none := hs
    refine ⟨none, rfl, { s.clearPending with braceStack := none :: s.braceStack }, rfl, rfl,
      ⟨rfl, rfl, rfl, fun _ => rfl⟩, ?_⟩
    refine scanTokens_openBrace ?_ tokens
    rw [Scan.openBrace, hnone]
  | .words (.stray kind), h, hs =>
    have hkind : s.pendingBlockKind = some kind := hs
    rw [readMark] at h
    split at h
    · cases h
    · next hmessage =>
      cases h
      refine ⟨some kind, by simpa using hmessage,
        { s.clearPending with braceStack := some kind :: s.braceStack }, rfl, rfl,
        ⟨rfl, rfl, rfl, fun _ => rfl⟩, ?_⟩
      refine scanTokens_openBrace ?_ tokens
      rw [Scan.openBrace, hkind]
      dsimp only
      rw [if_neg hmessage]

/-- A closing brace. -/
theorem scan_leave {r r' : Reading} {s : Scan} {kind : Option BlockKind}
    {braces : List (Option BlockKind)} (h : readMark due r .leave = some r')
    (hbraces : s.braceStack = kind :: braces) (tokens : List Token) :
    r' = .words .nothing ∧ ∃ s', s.closeBrace = .ok s' ∧
      resume r s (['\x7d'] :: tokens) = resume r' s' tokens := by
  have hclose : ∃ s', s.closeBrace = .ok s' := by
    rw [Scan.closeBrace, hbraces]
    exact ⟨_, rfl⟩
  obtain ⟨s', hs'⟩ := hclose
  match r, h with
  | .words pending, h =>
    cases h
    exact ⟨rfl, s', hs', scanTokens_closeBrace hs' tokens⟩

/-- What closing leaves of a block that is no message. -/
theorem closeBrace_block (due : Bool) {s s' : Scan} {kind : Option BlockKind}
    {braces : List (Option BlockKind)} (hbraces : s.braceStack = kind :: braces)
    (hkind : kind.any BlockKind.isMessage = false) (h : s.closeBrace = .ok s') :
    s'.pendingBlockKind = none ∧ Agree due { s with braceStack := braces } s' := by
  rw [Scan.closeBrace, hbraces] at h
  dsimp only at h
  rw [if_neg (by simp [hkind])] at h
  cases h
  exact ⟨rfl, rfl, rfl, rfl, fun _ => rfl⟩

/-- **What declares nothing changes no message.** -/
theorem scan_balanced {b : Balanced} {r r' : Reading} {s : Scan}
    (h : read due r b.marks = some r') (hs : r.Matches s) (tokens : List Token) :
    ∃ s', r'.Matches s' ∧ Agree due s s' ∧
      resume r s (tokensOf b.marks ++ tokens) = resume r' s' tokens := by
  induction b generalizing r r' s tokens with
  | done =>
    cases h
    exact ⟨s, hs, .refl s, rfl⟩
  | plain p rest ih =>
    obtain ⟨next, hp, hrest⟩ := read_cons due h
    obtain ⟨s₁, hs₁, hagree₁, hfirst⟩ := scan_plain hp hs (tokensOf rest.marks ++ tokens)
    obtain ⟨s₂, hs₂, hagree₂, hlast⟩ := ih hrest hs₁ tokens
    refine ⟨s₂, hs₂, hagree₁.trans hagree₂, ?_⟩
    rw [Balanced.marks, tokensOf_cons, List.append_assoc]
    exact hfirst.trans hlast
  | braces inner rest ihinner ihrest =>
    obtain ⟨r₁, henter, h⟩ := read_cons due h
    obtain ⟨r₂, hinner, h⟩ := read_append due h
    obtain ⟨r₃, hleave, hrest⟩ := read_cons due h
    obtain ⟨kind, hkind, s₁, rfl, hs₁, hagree₁, hopen⟩ :=
      scan_enter henter hs (tokensOf inner.marks ++ ['\x7d'] :: (tokensOf rest.marks ++ tokens))
    obtain ⟨s₂, hs₂, hagree₂, hmiddle⟩ :=
      ihinner hinner hs₁ (['\x7d'] :: (tokensOf rest.marks ++ tokens))
    have hbraces : s₂.braceStack = kind :: s.braceStack :=
      hagree₂.braceStack.trans hagree₁.braceStack
    obtain ⟨rfl, s₃, hs₃, hclose⟩ := scan_leave hleave hbraces (tokensOf rest.marks ++ tokens)
    obtain ⟨hnone, hagree₃⟩ := closeBrace_block due hbraces hkind hs₃
    obtain ⟨s₄, hs₄, hagree₄, hlast⟩ := ihrest hrest hnone tokens
    have hagree : Agree due s s₃ :=
      ⟨hagree₃.rootMessages.trans (hagree₂.rootMessages.trans hagree₁.rootMessages),
        hagree₃.messageStack.trans (hagree₂.messageStack.trans hagree₁.messageStack),
        hagree₃.braceStack,
        fun hdue => (hagree₃.packageName hdue).trans
          ((hagree₂.packageName hdue).trans (hagree₁.packageName hdue))⟩
    refine ⟨s₄, hs₄, hagree.trans hagree₄, ?_⟩
    rw [Balanced.marks, tokensOf_cons, tokensOf_append, tokensOf_cons]
    simp only [List.append_assoc]
    exact hopen.trans (hmiddle.trans (hclose.trans hlast))

/-- A declared block is what the reading has last. -/
def Reading.Declares : Reading → BlockKind → Token → Prop
  | .words (.declared kind name), kind', name' => kind = kind' ∧ name = name'
  | .skipped (.declared kind name), kind', name' => kind = kind' ∧ name = name'
  | _, _, _ => False

/-- What follows a block's name declares no other block: what is declared afterwards was
declared before. -/
structure Keeps (r r' : Reading) : Prop where
  named : (∀ kind, r ≠ .blockName kind) → ∀ kind, r' ≠ .blockName kind
  declares : (∀ kind, r ≠ .blockName kind) → ∀ {kind name}, r'.Declares kind name →
    r.Declares kind name

theorem Keeps.refl (r : Reading) : Keeps r r := ⟨fun h => h, fun _ _ _ h => h⟩

theorem Keeps.trans {r r' r'' : Reading} (h : Keeps r r') (h' : Keeps r' r'') : Keeps r r'' :=
  ⟨fun hr => h'.named (h.named hr),
    fun hr _ _ hd => h.declares hr (h'.declares (h.named hr) hd)⟩

/-- **A token** takes nothing back that was announced before a brace. -/
theorem keeps_of_readToken {r r' : Reading} {token : Token}
    (h : readToken due r token = some r') : Keeps r r' := by
  match r with
  | .words pending =>
    rw [readToken] at h
    split at h
    · split at h
      · cases h
        refine ⟨fun _ => nofun, fun _ _ _ hd => ?_⟩
        cases pending <;> exact hd
      · cases h
    · split at h
      · cases h
        exact ⟨fun _ => nofun, fun _ _ _ hd => hd.elim⟩
      · cases h
        exact .refl _
  | .blockName kind => exact ⟨fun hr => (hr kind rfl).elim, fun hr => (hr kind rfl).elim⟩
  | .taken kind =>
    cases h
    exact ⟨fun _ => nofun, fun _ _ _ hd => hd.elim⟩
  | .skipped pending =>
    rw [readToken] at h
    split at h
    · cases h
      refine ⟨fun _ => nofun, fun _ _ _ hd => ?_⟩
      cases pending <;> exact hd
    · cases h
      exact .refl _

theorem keeps_of_readTokens {tokens : List Token} {r r' : Reading}
    (h : tokens.foldlM (readToken due) r = some r') : Keeps r r' := by
  induction tokens generalizing r with
  | nil =>
    cases h
    exact .refl _
  | cons t ts ih =>
    rw [List.foldlM_cons] at h
    match ht : readToken due r t with
    | none =>
      rw [ht] at h
      cases h
    | some next =>
      rw [ht] at h
      exact (keeps_of_readToken ht).trans (ih h)

theorem keeps_of_readPlain {p : Plain} {r r' : Reading}
    (h : readMark due r (.plain p) = some r') : Keeps r r' := by
  rw [readMark] at h
  exact keeps_of_readTokens h

theorem keeps_of_readBalanced {b : Balanced} {r r' : Reading}
    (h : read due r b.marks = some r') : Keeps r r' := by
  induction b generalizing r r' with
  | done =>
    cases h
    exact .refl _
  | plain p rest ih =>
    obtain ⟨next, hp, hrest⟩ := read_cons due h
    exact (keeps_of_readPlain hp).trans (ih hrest)
  | braces inner rest _ ihrest =>
    obtain ⟨r₁, _, h⟩ := read_cons due h
    obtain ⟨r₂, _, h⟩ := read_append due h
    obtain ⟨r₃, hleave, hrest⟩ := read_cons due h
    have hkeeps := ihrest hrest
    match r₂, hleave with
    | .words pending, hleave =>
      cases hleave
      exact ⟨fun _ => hkeeps.named nofun, fun _ _ _ hd => (hkeeps.declares nofun hd).elim⟩

/-- What a declared block's brace makes of the scan. -/
def Scan.opened (s : Scan) (header : Header) : Scan :=
  { s with
    messageStack :=
      if header.kind.isMessage then (header.name.chars, []) :: s.messageStack
      else s.messageStack
    braceStack := some header.kind :: s.braceStack }

/-- **A block that was declared** is entered with its name. -/
theorem openBrace_declared {s : Scan} {header : Header}
    (hkind : s.pendingBlockKind = some header.kind)
    (hname : s.pendingMessageName = some header.name.chars) :
    s.openBrace = .ok (s.clearPending.opened header) := by
  rw [Scan.openBrace, hkind, hname]
  dsimp only
  split
  · next hmessage => simp [Scan.opened, hmessage, Scan.clearPending]
  · next hmessage => simp [Scan.opened, hmessage, Scan.clearPending]

/-- Two scans that agree do so after a block has begun. -/
theorem Agree.opened {s s' : Scan} (h : Agree due s s') (header : Header) :
    Agree due (s.opened header) (s'.opened header) := by
  obtain ⟨hroot, hstack, hbrace, hpackage⟩ := h
  exact ⟨hroot, by simp [Scan.opened, hstack], by simp [Scan.opened, hbrace], hpackage⟩

/-- **A declared block is opened** as what it is. -/
theorem scan_header {header : Header} {r r₁ r₂ : Reading} {s : Scan}
    (hheader : read due r header.marks = some r₁)
    (henter : readMark due r₁ (.enter (some header.kind)) = some r₂) (hs : r.Matches s)
    (tokens : List Token) :
    r₂ = .words .nothing ∧ ∃ s', s'.pendingBlockKind = none ∧
      Agree due (s.opened header) s' ∧
      resume r s (tokensOf header.marks ++ ['\x7b'] :: tokens) = resume r₂ s' tokens := by
  obtain ⟨a, hlabel, h⟩ := read_append due hheader
  obtain ⟨b, hkeyword, h⟩ := read_cons due h
  obtain ⟨c, hdot, h⟩ := read_append due h
  obtain ⟨d, hname, hmore⟩ := read_cons due h
  obtain ⟨s₁, hs₁, hagree₁, hfirst⟩ := scan_balanced hlabel hs
    (header.kind.keyword :: (header.name.chars ::
      (tokensOf header.more.marks ++ ['\x7b'] :: tokens)))
  obtain ⟨rfl, hsecond⟩ := scan_keyword hkeyword s₁
    (header.name.chars :: (tokensOf header.more.marks ++ ['\x7b'] :: tokens))
  -- a dot before the name is not seen
  obtain rfl : c = .blockName header.kind := by
    split at hdot <;> (cases hdot; rfl)
  have hdeclared : d = .words (.declared header.kind header.name.chars) := by
    cases hname
    rfl
  obtain ⟨s₂, hs₂, hagree₂, hthird⟩ := scan_plain hname (s := s₁) True.intro
    (tokensOf header.more.marks ++ ['\x7b'] :: tokens)
  obtain ⟨s₃, hs₃, hagree₃, hfourth⟩ := scan_balanced hmore hs₂ (['\x7b'] :: tokens)
  have hkeeps := keeps_of_readBalanced hmore
  match r₁, henter, hs₃, hkeeps, hfourth with
  | .words (.declared kind name), henter, hs₃, hkeeps, hfourth =>
    have hfresh : ∀ kind, d ≠ .blockName kind := by
      rw [hdeclared]
      nofun
    have hlast : d.Declares kind name := hkeeps.declares hfresh ⟨rfl, rfl⟩
    rw [hdeclared] at hlast
    obtain ⟨rfl, rfl⟩ := hlast
    rw [readMark, if_pos rfl] at henter
    cases henter
    have hagree := ((hagree₁.trans hagree₂).trans hagree₃).opened header
    refine ⟨rfl, s₃.clearPending.opened header, rfl,
      ⟨hagree.rootMessages, hagree.messageStack, hagree.braceStack, hagree.packageName⟩, ?_⟩
    have hopen := scanTokens_openBrace (openBrace_declared hs₃.1 hs₃.2) tokens
    have htokens : tokensOf header.marks = tokensOf
        (Balanced.ofPlains (header.label.toList.map Plain.word)).marks
          ++ (header.kind.keyword :: (header.name.chars :: tokensOf header.more.marks)) := by
      rw [Header.marks, tokensOf_append, tokensOf_cons, tokensOf_append, tokensOf_cons]
      split <;> rfl
    rw [htokens, List.append_assoc]
    exact hfirst.trans (hsecond.trans (hthird.trans (hfourth.trans hopen)))

/-- **What closing leaves of a message**: it joins the one around it. -/
theorem closeBrace_message (due : Bool) {s s' : Scan} {kind : BlockKind}
    {braces : List (Option BlockKind)}
    {name : Token} {children : List ProtoMessageNode}
    {stack : List (Token × List ProtoMessageNode)}
    (hbraces : s.braceStack = some kind :: braces) (hkind : kind.isMessage = true)
    (hstack : s.messageStack = (name, children) :: stack) (h : s.closeBrace = .ok s') :
    s'.pendingBlockKind = none ∧
      Agree due ({ s with braceStack := braces, messageStack := stack }.adopt [⟨name, children⟩])
        s' := by
  rw [Scan.closeBrace, hbraces] at h
  dsimp only at h
  rw [if_pos (by simp [hkind])] at h
  obtain ⟨package, roots, openMessages, openBraces, pendingKind, pendingName⟩ := s
  cases hstack
  cases h
  match stack with
  | [] => exact ⟨rfl, rfl, rfl, rfl, fun _ => rfl⟩
  | outer :: stack => exact ⟨rfl, rfl, rfl, rfl, fun _ => rfl⟩

/-- **A declared block**, given what becomes of its declarations. -/
theorem scan_block {header : Header} {body : Body} {r r₁ r₂ r₃ r₄ : Reading} {s : Scan}
    (hbody : ∀ {s : Scan}, Reading.Matches (.words .nothing) s → ∀ tokens : List Token,
      ∃ s', r₃.Matches s' ∧ Agree due (s.adopt body.messages) s' ∧
        resume (.words .nothing) s (tokensOf body.marks ++ tokens) = resume r₃ s' tokens)
    (hheader : read due r header.marks = some r₁)
    (henter : readMark due r₁ (.enter (some header.kind)) = some r₂)
    (hleave : readMark due r₃ .leave = some r₄) (hs : r.Matches s) (tokens : List Token) :
    r₄ = .words .nothing ∧ ∃ s', s'.pendingBlockKind = none ∧
      Agree due (s.adopt (if header.kind.isMessage then [⟨header.name.chars, body.messages⟩]
        else body.messages)) s' ∧
      resume r s (tokensOf header.marks ++ ['\x7b'] :: (tokensOf body.marks ++
        ['\x7d'] :: tokens)) = resume r₄ s' tokens := by
  -- the header, the body and the brace that ends it, one after the other
  obtain ⟨rfl, s₁, hs₁, hagree₁, hopen⟩ :=
    scan_header hheader henter hs (tokensOf body.marks ++ ['\x7d'] :: tokens)
  obtain ⟨s₂, _, hagree₂, hmiddle⟩ := hbody hs₁ (['\x7d'] :: tokens)
  have hagree : Agree due ((s.opened header).adopt body.messages) s₂ :=
    (hagree₁.adopt body.messages).trans hagree₂
  have hbraces : s₂.braceStack = some header.kind :: s.braceStack := by
    rw [hagree.braceStack, Scan.braceStack_adopt]
    rfl
  obtain ⟨rfl, s₃, hs₃, hclose⟩ := scan_leave hleave hbraces tokens
  refine ⟨rfl, s₃, ?_⟩
  have hrun := hopen.trans (hmiddle.trans hclose)
  have hpackage : due = false → s₂.packageName = s.packageName := by
    intro hdue
    rw [hagree.packageName hdue, Scan.packageName_adopt]
    rfl
  by_cases hkind : header.kind.isMessage = true
  · have hopened : (s.opened header).adopt body.messages
        = { s.opened header with
            messageStack := (header.name.chars, body.messages) :: s.messageStack } := by
      simp [Scan.opened, Scan.adopt, hkind]
    rw [hopened] at hagree
    obtain ⟨hnone, hagree₃⟩ := closeBrace_message due hbraces hkind
      hagree.messageStack hs₃
    have hback : Agree due s { s₂ with
        braceStack := s.braceStack, messageStack := s.messageStack } :=
      ⟨hagree.rootMessages, rfl, rfl, hpackage⟩
    rw [if_pos hkind]
    exact ⟨hnone, (hback.adopt _).trans hagree₃, hrun⟩
  · have hopened : (s.opened header).adopt body.messages
        = { s.adopt body.messages with
            braceStack := some header.kind :: s.braceStack } := by
      unfold Scan.adopt Scan.opened
      rw [if_neg hkind]
      dsimp only
      split <;> rfl
    rw [hopened] at hagree
    obtain ⟨hnone, hagree₃⟩ := closeBrace_block due hbraces (by simpa using hkind) hs₃
    have hback : Agree due (s.adopt body.messages) { s₂ with braceStack := s.braceStack } :=
      ⟨hagree.rootMessages, hagree.messageStack, (Scan.braceStack_adopt s _).symm,
        fun hdue => (hpackage hdue).trans (Scan.packageName_adopt s _).symm⟩
    rw [if_neg hkind]
    exact ⟨hnone, hback.trans hagree₃, hrun⟩

/-- **The declarations of a body** are adopted by what is open around them. -/
theorem scan_body {body : Body} {r r' : Reading} {s : Scan}
    (h : read due r body.marks = some r') (hs : r.Matches s) (tokens : List Token) :
    ∃ s', r'.Matches s' ∧ Agree due (s.adopt body.messages) s' ∧
      resume r s (tokensOf body.marks ++ tokens) = resume r' s' tokens := by
  induction body generalizing r r' s tokens with
  | done =>
    cases h
    refine ⟨s, hs, ?_, rfl⟩
    rw [Body.messages, Scan.adopt_nil]
    exact .refl s
  | statement stmt rest ih =>
    obtain ⟨r₁, hstmt, hrest⟩ := read_append due h
    obtain ⟨s₁, hs₁, hagree₁, hfirst⟩ := scan_balanced hstmt hs (tokensOf rest.marks ++ tokens)
    obtain ⟨s₂, hs₂, hagree₂, hlast⟩ := ih hrest hs₁ tokens
    refine ⟨s₂, hs₂, (hagree₁.adopt _).trans hagree₂, ?_⟩
    rw [Body.marks, tokensOf_append, List.append_assoc]
    exact hfirst.trans hlast
  | block header body rest ihbody ihrest =>
    obtain ⟨r₁, hheader, h⟩ := read_append due h
    obtain ⟨r₂, henter, h⟩ := read_cons due h
    obtain ⟨r₃, hbody, h⟩ := read_append due h
    obtain ⟨r₄, hleave, hrest⟩ := read_cons due h
    -- the brace is read only where nothing is left over
    obtain ⟨rfl, -⟩ := scan_header hheader henter hs tokens
    obtain ⟨rfl, s₁, hs₁, hagree₁, hfirst⟩ := scan_block (fun hs tokens => ihbody hbody hs tokens)
      hheader henter hleave hs (tokensOf rest.marks ++ tokens)
    obtain ⟨s₂, hs₂, hagree₂, hlast⟩ := ihrest hrest hs₁ tokens
    refine ⟨s₂, hs₂, ?_, ?_⟩
    · rw [Body.messages, Scan.adopt_append]
      exact (hagree₁.adopt _).trans hagree₂
    · rw [Body.marks, tokensOf_append, tokensOf_cons, tokensOf_append, tokensOf_cons]
      simp only [List.append_assoc]
      exact hfirst.trans hlast

end

/-! ## Resolution -/

/-- **Every path resolves** to the package and the names along it. -/
def Schema.Resolves (unicodeWord : Char → Bool) (schema : Schema) (text : List Char) : Prop :=
  ∀ (path : List ℕ) (names : List Token), path ≠ [] → namesAt schema.messages path = some names →
    resolveProtoMessageFullName unicodeWord text (path.map Int.ofNat)
      = .ok (schema.qualified names)

/-- What the scan reads of a schema. -/
def Schema.tokens (schema : Schema) : List Token :=
  tokensOf schema.before.marks ++
    (schema.package.toList.flatMap PackageName.plains).flatMap Plain.tokens ++
      tokensOf schema.after.marks

/-- The tokens of the text are those of its parts. -/
theorem Schema.tokens_eq (schema : Schema) :
    schema.lexemes.flatMap Lexeme.tokens = schema.tokens := by
  simp [Schema.lexemes, Schema.tokens, tokensOf, List.flatMap_map, Lexeme.tokens]

/-- What the scan takes the package to be. -/
def Schema.scannedPackage (schema : Schema) : Token :=
  (schema.package.map (fun name => name.first.chars)).getD []

/-- The rest of a dotted name is passed over. -/
theorem skipToSemicolon_more (s : Scan) (more : DottedName) (tokens : List Token) :
    skipToSemicolon s (more.plains.flatMap Plain.tokens ++ [';'] :: tokens)
      = scanTokens s tokens := by
  induction more with
  | nil =>
    show skipToSemicolon s ([';'] :: tokens) = _
    rw [skipToSemicolon, if_pos rfl]
  | cons piece more ih =>
    match piece with
    | .dot => exact ih
    | .word w =>
      have hne : w.chars ≠ [';'] := by
        intro heq
        have hw := w.isWord
        rw [heq] at hw
        cases hw
      show skipToSemicolon s (w.chars :: (DottedName.plains more).flatMap Plain.tokens
        ++ [';'] :: tokens) = _
      rw [List.cons_append, skipToSemicolon, if_neg hne]
      exact ih

/-- **The package statement.** -/
theorem scanTokens_package (s : Scan) (name : PackageName) (tokens : List Token) :
    scanTokens s (name.plains.flatMap Plain.tokens ++ tokens)
      = scanTokens { s with packageName := name.first.chars } tokens := by
  have htokens : name.plains.flatMap Plain.tokens ++ tokens = packageKeyword ::
      name.first.chars :: (name.more.plains.flatMap Plain.tokens ++ [';'] :: tokens) := by
    have hmore : (name.more.plains ++ [Plain.semicolon]).flatMap Plain.tokens
        = name.more.plains.flatMap Plain.tokens ++ [[';']] := List.flatMap_append
    show packageKeyword :: name.first.chars ::
      ((name.more.plains ++ [Plain.semicolon]).flatMap Plain.tokens ++ tokens) = _
    rw [hmore, List.append_assoc, List.singleton_append]
  have hne : name.first.chars ≠ [';'] := by
    intro heq
    have hw := name.first.isWord
    rw [heq] at hw
    cases hw
  rw [htokens, scanTokens, if_pos rfl, skipToSemicolon, if_neg hne]
  exact skipToSemicolon_more _ _ _

/-- The end of the text. -/
theorem resume_nil (r : Reading) (s : Scan) :
    ∃ s', resume r s [] = .ok s' ∧ Agree false s s' := by
  match r with
  | .words _ => exact ⟨s, rfl, .refl s⟩
  | .skipped _ => exact ⟨s, rfl, .refl s⟩
  | .blockName _ => exact ⟨_, rfl, ⟨rfl, rfl, rfl, fun _ => rfl⟩⟩
  | .taken _ => exact ⟨_, rfl, ⟨rfl, rfl, rfl, fun _ => rfl⟩⟩

/-- What follows the package statement. -/
theorem scan_after {body : Body} {pending : Pending} {s : Scan}
    (h : (read false (.words pending) body.marks).isSome = true) (hs : pending.Matches s) :
    ∃ s', scanTokens s (tokensOf body.marks) = .ok s' ∧
      Agree false (s.adopt body.messages) s' := by
  obtain ⟨r, hr⟩ := Option.isSome_iff_exists.mp h
  obtain ⟨s₁, _, hagree₁, hrun⟩ := scan_body hr (s := s) hs []
  obtain ⟨s₂, hend, hagree₂⟩ := resume_nil r s₁
  rw [List.append_nil] at hrun
  exact ⟨s₂, hrun.trans hend, hagree₁.trans hagree₂⟩

/-- **The scan of a schema that nothing misleads** has all its messages. -/
theorem scan_schema {schema : Schema} (h : schema.unmisled = true) :
    ∃ s, scanTokens {} schema.tokens = .ok s ∧ s.braceStack = [] ∧
      s.rootMessages = schema.messages ∧ s.packageName = schema.scannedPackage := by
  rw [Schema.unmisled] at h
  split at h
  · next pending hbefore =>
    obtain ⟨s₁, hs₁, hagree₁, hfirst⟩ := scan_body hbefore (s := {}) rfl
      ((schema.package.toList.flatMap PackageName.plains).flatMap Plain.tokens ++
        tokensOf schema.after.marks)
    -- the package statement sets the name, whatever it was before
    have hpackage : ∃ s₂ : Scan, pending.Matches s₂ ∧ s₂.packageName = schema.scannedPackage ∧
        Agree true s₁ s₂ ∧ scanTokens s₁
          ((schema.package.toList.flatMap PackageName.plains).flatMap Plain.tokens ++
            tokensOf schema.after.marks) = scanTokens s₂ (tokensOf schema.after.marks) := by
      match hname : schema.package with
      | none =>
        rw [hname] at hagree₁
        refine ⟨s₁, hs₁, ?_, .refl s₁, rfl⟩
        rw [hagree₁.packageName rfl, Scan.packageName_adopt, Schema.scannedPackage, hname]
        rfl
      | some name =>
        refine ⟨{ s₁ with packageName := name.first.chars }, ?_, ?_, ⟨rfl, rfl, rfl, nofun⟩, ?_⟩
        · cases pending <;> exact hs₁
        · rw [Schema.scannedPackage, hname]
          rfl
        · have hone : (some name).toList.flatMap PackageName.plains = name.plains := by simp
          rw [hone]
          exact scanTokens_package s₁ name _
    obtain ⟨s₂, hs₂, hscanned, hagree₂, hsecond⟩ := hpackage
    obtain ⟨s₃, hthird, hagree₃⟩ := scan_after h hs₂
    have hroot : s₂.rootMessages = schema.before.messages :=
      hagree₂.rootMessages.trans hagree₁.rootMessages
    have hstack : s₂.messageStack = [] := hagree₂.messageStack.trans hagree₁.messageStack
    have hbrace : s₂.braceStack = [] := hagree₂.braceStack.trans hagree₁.braceStack
    refine ⟨s₃, ?_, ?_, ?_, ?_⟩
    · rw [Schema.tokens, List.append_assoc]
      exact hfirst.trans (hsecond.trans hthird)
    · rw [hagree₃.braceStack, Scan.braceStack_adopt, hbrace]
    · rw [hagree₃.rootMessages, Scan.adopt, hstack, Schema.messages, ← hroot]
    · rw [hagree₃.packageName rfl, Scan.packageName_adopt, hscanned]
  · cases h

/-- The names along a path. -/
theorem walk_of_namesAt {full : List ℤ} {nodes : List ProtoMessageNode} {path : List ℕ}
    {names : List Token} (h : namesAt nodes path = some names) :
    walk full nodes (path.map Int.ofNat) = .ok names := by
  induction path generalizing nodes names with
  | nil =>
    cases h
    rfl
  | cons index path ih =>
    rw [namesAt] at h
    split at h
    · cases h
    · next node hnode =>
      obtain ⟨rest, hrest, rfl⟩ := Option.map_eq_some_iff.mp h
      have hsibling : (if 0 ≤ Int.ofNat index then nodes[(Int.ofNat index).toNat]? else none)
          = some node := by
        rw [if_pos (show 0 ≤ Int.ofNat index from Int.natCast_nonneg index)]
        exact hnode
      rw [List.map_cons, walk, hsibling]
      dsimp only
      rw [ih hrest]
      rfl

/-- **What a schema that nothing misleads resolves to.** -/
theorem resolve_eq {u : Char → Bool} {schema : Schema} {text : List Char}
    (hspelled : Spelled schema.lexemes text) (h : schema.unmisled = true) {path : List ℕ}
    {names : List Token} (hpath : path ≠ []) (hnames : namesAt schema.messages path = some names) :
    resolveProtoMessageFullName u text (path.map Int.ofNat)
      = .ok (fullName schema.scannedPackage names) := by
  obtain ⟨s, hscan, hbraces, hroot, hpackage⟩ := scan_schema h
  have htokens := hspelled.tokenizeProtoSchema u
  rw [schema.tokens_eq] at htokens
  have hnonempty : s.rootMessages.isEmpty = false := by
    rw [hroot]
    match hm : schema.messages, path, hpath with
    | [], index :: path, _ =>
      rw [hm] at hnames
      cases hnames
    | _ :: _, _, _ => rfl
  have hindexes : path.map Int.ofNat ≠ [] := by simpa using hpath
  have hparse : parseProtoMessageTree u text = .ok (schema.scannedPackage, schema.messages) := by
    rw [parseProtoMessageTree, htokens]
    show (do
      let s ← scanTokens {} schema.tokens
      _) = _
    rw [hscan]
    show (if s.braceStack ≠ [] then _ else _) = _
    rw [if_neg (by simp [hbraces]), hnonempty, hroot, hpackage]
    rfl
  rw [resolveProtoMessageFullName, hparse]
  show (if path.map Int.ofNat = [] then _ else _) = _
  rw [if_neg hindexes, walk_of_namesAt hnames]
  rfl

/-- The first name stands by itself, the others have a dot before them. -/
theorem intercalate_cons (name : Token) (names : List Token) :
    (['.'] : List Char).intercalate (name :: names) = name ++ names.flatMap ('.' :: ·) := by
  induction names generalizing name with
  | nil => simp [List.intercalate]
  | cons next names ih =>
    have hcons : (['.'] : List Char).intercalate (name :: next :: names)
        = name ++ '.' :: (['.'] : List Char).intercalate (next :: names) := by
      simp [List.intercalate]
    rw [hcons, ih, List.flatMap_cons, List.cons_append]

/-- The name is its first piece just if there is no other. -/
theorem PackageName.chars_eq_first_iff (name : PackageName) :
    name.chars = name.first.chars ↔ name.more = [] := by
  constructor
  · intro h
    match hmore : name.more with
    | [] => rfl
    | piece :: more =>
      rw [PackageName.chars, hmore, List.flatMap_cons] at h
      have hlength := congrArg List.length h
      have hpiece : piece.chars ≠ [] := by
        match piece with
        | .dot => exact List.cons_ne_nil _ _
        | .word w =>
          intro hnil
          have hw := w.isWord
          rw [show w.chars = [] from hnil] at hw
          cases hw
      have hpos := List.length_pos_of_ne_nil hpiece
      simp only [List.length_append] at hlength
      omega
  · intro h
    rw [PackageName.chars, h, List.flatMap_nil, List.append_nil]

/-- **The scan has the package right** if its name is written in one piece, and only then. -/
theorem fullName_eq_qualified_iff (schema : Schema) (names : List Token) :
    fullName schema.scannedPackage names = schema.qualified names
      ↔ schema.packageInOnePiece = true := by
  rw [Schema.scannedPackage, Schema.qualified, Schema.packageInOnePiece, fullName]
  match schema.package with
  | none => simp [joinDots]
  | some name =>
    have hne : name.first.chars ≠ [] := by
      intro hnil
      have hw := name.first.isWord
      rw [hnil] at hw
      cases hw
    have hsingle : (some name).toList.map PackageName.chars ++ names = name.chars :: names := rfl
    have hfirst : (Option.map (fun name : PackageName => name.first.chars) (some name)).getD []
        = name.first.chars := rfl
    rw [hsingle, hfirst, if_neg hne, joinDots, intercalate_cons, intercalate_cons,
      List.append_cancel_right_eq, eq_comm, PackageName.chars_eq_first_iff]
    simp

/-- A path of one index exists where there is a message. -/
theorem exists_namesAt {nodes : List ProtoMessageNode} (h : nodes ≠ []) :
    ∃ names, namesAt nodes [0] = some names := by
  match nodes, h with
  | node :: nodes, _ => exact ⟨[node.name], rfl⟩

/-- **A schema that nothing misleads resolves each of its paths** to its package and the names
along the path, whatever blanks, comments and strings it is written with. What is left is the
package: its name is taken from the first word of the package statement, so it must be one. -/
theorem Schema.resolves_iff (u : Char → Bool) {schema : Schema} {text : List Char}
    (hspelled : Spelled schema.lexemes text) (h : schema.unmisled = true) :
    schema.Resolves u text ↔ schema.messages = [] ∨ schema.packageInOnePiece = true := by
  constructor
  · intro hresolves
    by_cases hmessages : schema.messages = []
    · exact .inl hmessages
    · obtain ⟨names, hnames⟩ := exists_namesAt hmessages
      have hname := hresolves [0] names (by simp) hnames
      rw [resolve_eq hspelled h (by simp) hnames] at hname
      exact .inr ((fullName_eq_qualified_iff schema names).mp (Except.ok.inj hname))
  · rintro (hmessages | hpackage) path names hpath hnames
    · match path, hpath with
      | index :: path, _ =>
        rw [hmessages] at hnames
        cases hnames
    · rw [resolve_eq hspelled h hpath hnames, (fullName_eq_qualified_iff schema names).mpr hpackage]

def one : Number := ⟨['1'], [], [], rfl, rfl, rfl, rfl⟩

def optionalString (name : Word) : Statement :=
  .field (some ⟨"optional".toList, by decide⟩) [.word ⟨"string".toList, by decide⟩] name one none

/-- `package shop; message Event { optional string message = 1; message Detail { optional
string group = 1; } }`: the fields' names take the semicolons along, and no more. -/
def events : Schema where
  before := .done
  package := some ⟨⟨"shop".toList, by decide⟩, []⟩
  after :=
    .block (.message ⟨"Event".toList, by decide⟩)
      (.statement (optionalString ⟨"message".toList, by decide⟩)
        (.block (.message ⟨"Detail".toList, by decide⟩)
          (.statement (optionalString ⟨"group".toList, by decide⟩) .done) .done)) .done

/-- Messages in a package whose name is in one piece are resolved, and without messages any name
will do. -/
theorem Schema.resolves_iff_events :
    events.Resolves (fun _ => false) (write events.lexemes) ↔
      events.messages = [] ∨ events.packageInOnePiece = true :=
  Schema.resolves_iff _ (spelled_write _) (by decide)

/-- `message Parcel { optional string package = 1; }`. -/
def parcel : Schema where
  before :=
    .block (.message ⟨"Parcel".toList, by decide⟩)
      (.statement (optionalString ⟨"package".toList, by decide⟩) .done) .done
  package := none
  after := .done

/-- **A field may be called `package`**, and then the semicolon after its number is taken for
the name of the package. -/
theorem not_resolves_parcel :
    Spelled parcel.lexemes (write parcel.lexemes) ∧
      ¬parcel.Resolves (fun _ => false) (write parcel.lexemes) := by
  refine ⟨spelled_write _, fun hresolves => ?_⟩
  have hscan : resolveProtoMessageFullName (fun _ => false) (write parcel.lexemes) [0]
      = .ok ";.Parcel".toList := by
    rw [resolveProtoMessageFullName, parseProtoMessageTree,
      (spelled_write parcel.lexemes).tokenizeProtoSchema]
    rfl
  have hname := (hresolves [0] ["Parcel".toList] (by simp) rfl).symm.trans hscan
  have hne : parcel.qualified ["Parcel".toList] ≠ ";.Parcel".toList := by decide
  exact hne (Except.ok.inj hname)

/-- `message Parcel { optional string message = 1 [(x) = { }]; }`: the option's braces count as a
message `x`. -/
def labelled : Schema where
  before :=
    .block (.message ⟨"Parcel".toList, by decide⟩)
      (.statement (.field (some ⟨"optional".toList, by decide⟩)
        [.word ⟨"string".toList, by decide⟩] ⟨"message".toList, by decide⟩ one
        (some (.plain openParen (.plain (.word ⟨"x".toList, by decide⟩) (.plain closeParen
          (.plain equals (.braces .done .done))))))) .done) .done
  package := none
  after := .done

/-- A scan that is misled may be right by accident: no path of this schema comes by the message
it has too many. -/
example : labelled.unmisled = false ∧
    labelled.Resolves (fun _ => false) (write labelled.lexemes) := by
  refine ⟨by decide, fun path names hpath hnames => ?_⟩
  match path, hpath, hnames with
  | [0], _, hnames =>
    cases hnames
    rw [resolveProtoMessageFullName, parseProtoMessageTree,
      (spelled_write labelled.lexemes).tokenizeProtoSchema]
    rfl
  | 0 :: index :: path, _, hnames => cases hnames
  | (index + 1) :: path, _, hnames => cases hnames

end ProtoSchema
