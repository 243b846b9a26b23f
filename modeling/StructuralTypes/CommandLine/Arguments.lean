import StructuralTypes.Text.DecimalDigit
import StructuralTypes.Text.Quoted

/-!
# Command line arguments

Reads the arguments of the command line. Options may be abbreviated, joined with their argument or
with each other, and mixed with the target; two dashes end them.
-/

namespace StructuralTypes.CommandLine

/-- What the command line asks for. A member is missing if two dashes stand for it. -/
structure Arguments where
  target : String
  members : List (Option String)
  other? : Option String
  outline : Bool
  checks : Nat
deriving DecidableEq, Inhabited

inductive Switch where
  | help
  | member
  | supersedes
  | outline
  | check
deriving DecidableEq

namespace Switch

def all : List Switch := [.help, .member, .supersedes, .outline, .check]

def short : Switch → Char
  | .help => 'h'
  | .member => 'm'
  | .supersedes => 's'
  | .outline => 'o'
  | .check => 'c'

def long : Switch → String
  | .help => "--help"
  | .member => "--member"
  | .supersedes => "--supersedes"
  | .outline => "--outline"
  | .check => "--check"

def takesArgument : Switch → Bool
  | .member | .supersedes => true
  | _ => false

/-- Both spellings, as messages give them. -/
def text (s : Switch) : String := "-" ++ s.short.toString ++ "/" ++ s.long

def ofShort? (c : Char) : Option Switch := all.find? (·.short = c)

/-- The switch with exactly this spelling, and whether it is the long one. -/
def ofSpelling? (spelling : String) : Option (Switch × Bool) :=
  match spelling.toList with
  | ['-', c] => (ofShort? c).map (·, false)
  | _ => (all.find? (·.long = spelling)).map (·, true)

end Switch

/-- Why arguments cannot be understood. -/
inductive Misuse where
  | ambiguous (argument : String) (candidates : List Switch)
  | expectedArgument (switch : Switch)
  | ignoredArgument (switch : Switch) (argument : String)
  | missingTarget
  | unrecognized (arguments : List String)
deriving DecidableEq

def Misuse.message : Misuse → String
  | .ambiguous argument candidates =>
    "ambiguous option: " ++ argument ++ " could match " ++ ", ".intercalate (candidates.map (·.long))
  | .expectedArgument switch => "argument " ++ switch.text ++ ": expected one argument"
  | .ignoredArgument switch argument =>
    "argument " ++ switch.text ++ ": ignored explicit argument " ++ Text.quote argument
  | .missingTarget => "the following arguments are required: target"
  | .unrecognized arguments => "unrecognized arguments: " ++ " ".intercalate arguments

/-- The role of one argument. -/
inductive Token where
  | separator
  | plain (text : String)
  | unknown (text : String)
  | switch (s : Switch) (isLong : Bool) (joined? : Option String)
deriving DecidableEq

/-- Whether a text is a minus sign with digits, or with digits around a point of which some follow
it; a line feed may stand at the end. -/
def looksLikeNegativeNumber (text : String) : Bool :=
  let chars := text.toList
  let body := if chars.getLast? = some '\n' then chars.dropLast else chars
  match body with
  | '-' :: rest =>
    match rest.dropWhile Text.isDecimalDigit with
    | [] => !rest.isEmpty
    | '.' :: places => !places.isEmpty && places.all Text.isDecimalDigit
    | _ => false
  | _ => false

/-- Splits a text at its first equals sign. -/
def splitAtSign (text : String) : String × Option String :=
  let chars := text.toList
  let before := chars.takeWhile (· ≠ '=')
  match chars.drop before.length with
  | [] => (text, none)
  | _ :: after => (String.ofList before, some (String.ofList after))

/-- The role of an argument that starts with a dash and is no switch by itself. -/
def classifyDashed (text : String) : Except Misuse Token :=
  let (before, joined?) := splitAtSign text
  match joined?.bind fun _ => Switch.ofSpelling? before with
  | some (s, isLong) => .ok (.switch s isLong joined?)
  | none =>
    match text.toList with
    | '-' :: '-' :: _ =>
      match Switch.all.filter (·.long.startsWith before) with
      | [s] => .ok (.switch s true joined?)
      | [] => .ok (leftover text)
      | candidates => .error (.ambiguous text candidates)
    | '-' :: c :: rest =>
      match Switch.ofShort? c with
      | some s => .ok (.switch s false (some (String.ofList rest)))
      | none => .ok (leftover text)
    | _ => .ok (leftover text)
where
  leftover (text : String) : Token :=
    if looksLikeNegativeNumber text || text.contains ' ' then .plain text else .unknown text

def classify (text : String) : Except Misuse Token :=
  if !text.startsWith "-" then .ok (.plain text)
  else
    match Switch.ofSpelling? text with
    | some (s, isLong) => .ok (.switch s isLong none)
    | none => if text = "-" then .ok (.plain text) else classifyDashed text

/-- The roles of all arguments; after two dashes none is a switch. -/
def tokenize : List String → Except Misuse (List Token)
  | [] => .ok []
  | "--" :: rest => .ok (.separator :: rest.map .plain)
  | text :: rest => do return (← classify text) :: (← tokenize rest)

/-- What has been understood so far. -/
structure Progress where
  target? : Option String
  members : List (Option String)
  other? : Option String
  outline : Bool
  checks : Nat
  extras : List String
deriving Inhabited

/-- Why reading stops early: a misuse, or a request for help. -/
inductive Stop where
  | misuse (m : Misuse)
  | help
deriving DecidableEq

namespace Progress

def start : Progress := ⟨none, [], none, false, 0, []⟩

def addExtra (p : Progress) (text : String) : Progress := { p with extras := p.extras ++ [text] }

/-- Carries out a switch; one that takes no argument ignores it. -/
def act (p : Progress) (s : Switch) (argument? : Option String) : Except Stop Progress :=
  match s with
  | .help => .error .help
  | .member => .ok { p with members := p.members ++ [argument?] }
  | .supersedes => .ok { p with other? := argument? }
  | .outline => .ok { p with outline := true }
  | .check => .ok { p with checks := p.checks + 1 }

end Progress

/-- The argument of a switch. Two dashes only hold its place. -/
def given? (argument : String) : Option String := if argument = "--" then none else some argument

/-- A cluster of joined switches: those that take no argument in order, and then perhaps one that
takes an argument, which is joined to it or still to come. -/
structure Cluster where
  flags : List Switch
  last? : Option (Switch × Option String)

/-- A switch with nothing joined to it. -/
def Cluster.alone (s : Switch) : Cluster :=
  if s.takesArgument then ⟨[], some (s, none)⟩ else ⟨[s], none⟩

/-- Takes apart what is joined to a switch: it is the argument of a switch that takes one, and goes
on with further switches after a short one that takes none. -/
def readJoined (s : Switch) (isLong : Bool) : List Char → Except Misuse Cluster
  | [] => if s.takesArgument then .ok ⟨[], some (s, some "")⟩ else .error (.ignoredArgument s "")
  | c :: rest =>
    let argument := String.ofList (c :: rest)
    if s.takesArgument then .ok ⟨[], some (s, some argument)⟩
    else if isLong then .error (.ignoredArgument s argument)
    else match Switch.ofShort? c with
      | none => .error (.ignoredArgument s argument)
      | some next => do
        let cluster ← if rest.isEmpty then .ok (.alone next) else readJoined next false rest
        return { cluster with flags := s :: cluster.flags }

def readCluster (s : Switch) (isLong : Bool) : Option String → Except Misuse Cluster
  | none => .ok (.alone s)
  | some joined => readJoined s isLong joined.toList

/-- Carries out the switches of a cluster whose last one has got its argument. -/
def Progress.actAll (p : Progress) (flags : List Switch) (last? : Option (Switch × String)) :
    Except Stop Progress := do
  let p ← flags.foldlM (fun p s => p.act s none) p
  match last? with
  | none => return p
  | some (s, argument) => p.act s (given? argument)

/-- Goes through the tokens. The first plain one is the target, and takes a separator before or
after it along. -/
def consume : List Token → Progress → Except Stop Progress
  | [], p => .ok p
  | .unknown text :: rest, p => consume rest (p.addExtra text)
  | .separator :: .plain text :: rest, p =>
    match p.target? with
    | none => consume rest { p with target? := some text }
    | some _ => consume rest ((p.addExtra "--").addExtra text)
  | .separator :: rest, p => consume rest (p.addExtra "--")
  | .plain text :: .separator :: rest, p =>
    match p.target? with
    | none => consume rest { p with target? := some text }
    | some _ => consume rest ((p.addExtra text).addExtra "--")
  | .plain text :: rest, p =>
    match p.target? with
    | none => consume rest { p with target? := some text }
    | some _ => consume rest (p.addExtra text)
  | .switch s isLong joined? :: rest, p =>
    match readCluster s isLong joined? with
    | .error m => .error (.misuse m)
    | .ok cluster =>
      match cluster.last?, rest with
      | none, rest => do consume rest (← p.actAll cluster.flags none)
      | some (last, some argument), rest => do
        consume rest (← p.actAll cluster.flags (some (last, argument)))
      | some (last, none), .plain text :: rest => do
        consume rest (← p.actAll cluster.flags (some (last, text)))
      | some (last, none), _ => .error (.misuse (.expectedArgument last))

/-- Reads all arguments. -/
def parse (args : List String) : Except Stop Arguments := do
  let tokens ← (tokenize args).mapError Stop.misuse
  let p ← consume tokens .start
  match p.target? with
  | none => .error (.misuse .missingTarget)
  | some target =>
    if p.extras.isEmpty then
      return ⟨target, p.members, p.other?, p.outline, p.checks⟩
    else .error (.misuse (.unrecognized p.extras))

end StructuralTypes.CommandLine
