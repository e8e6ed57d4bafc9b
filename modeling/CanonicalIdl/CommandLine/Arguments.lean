/-!
# Arguments of the command line

The words of a command line are read from left to right.  A command has switches, which
stand alone or take a value, and words without a name.  A switch is written by its long
name (`--config`, with its value behind `=` or as the next word), or by its short name,
where several may share a dash (`-vc`) and the value may follow at once.  Behind a lone
`--` every word stands for itself.

Main results:

- Theorem `has_give`, `not_has_of_give`: a switch is taken up once.
-/

namespace CanonicalIdl.CommandLine

/-- What a switch asks for. -/
inductive SwitchKind where
  /-- The switch stands alone. -/
  | flag
  /-- A value follows, which may be empty. -/
  | value
  /-- A path follows, which may not be empty. -/
  | path
  | help
  | version
  deriving Repr, DecidableEq

/-- A switch of a command. -/
structure Switch where
  long : String
  short : Option Char
  kind : SwitchKind
  deriving Repr, DecidableEq

/-- Whether a switch needs a value. -/
def Switch.takesValue (switch : Switch) : Bool :=
  switch.kind = .value || switch.kind = .path

/-- Why words make no request. -/
inductive UsageError where
  | unknown (word : String)
  | valueMissing (switch : String)
  | valueUnneeded (switch : String)
  | repeated (switch : String)
  | missing (what : String)
  | exclusive (one other : String)
  deriving Repr, DecidableEq

/-- The wording of a usage error. -/
def UsageError.message : UsageError → String
  | .unknown word => "unexpected argument '" ++ word ++ "' found"
  | .valueMissing switch => "a value is required for '--" ++ switch ++ "' but none was supplied"
  | .valueUnneeded switch => "the switch '--" ++ switch ++ "' takes no value"
  | .repeated switch => "the argument '--" ++ switch ++ "' cannot be used multiple times"
  | .missing what => "the required argument " ++ what ++ " was not provided"
  | .exclusive one other =>
    "the argument '--" ++ one ++ "' cannot be used with '--" ++ other ++ "'"

/-- Why the reading of words ends before their end. -/
inductive Stop where
  | help
  | version
  | usage (error : UsageError)
  deriving Repr, DecidableEq

/-- The words of a command that have been read: the switches with their values, where a
flag has none, and the words that stand for themselves. -/
structure Level where
  given : List (String × Option String)
  words : List String
  /-- A switch that waits for its value. -/
  awaiting : Option Switch
  /-- A lone `--` has been read. -/
  literal : Bool
  deriving Repr, DecidableEq

namespace Level

/-- No words have been read. -/
def start : Level := ⟨[], [], none, false⟩

/-- Whether a switch is given. -/
def has (level : Level) (name : String) : Bool :=
  (level.given.lookup name).isSome

/-- The value of a switch, if it is given. -/
def value? (level : Level) (name : String) : Option String :=
  (level.given.lookup name).join

/-- Take up a switch with its value.  No switch may be given twice, and no path is empty. -/
def give (level : Level) (switch : Switch) (value : Option String) : Except Stop Level :=
  if switch.kind = .path ∧ value = some "" then .error (.usage (.valueMissing switch.long))
  else if level.has switch.long then .error (.usage (.repeated switch.long))
  else .ok { level with given := (switch.long, value) :: level.given }

/-- The switch that waits for a value gets none. -/
def settle (level : Level) : Except Stop Level :=
  match level.awaiting with
  | none => .ok level
  | some switch => .error (.usage (.valueMissing switch.long))

/-- A switch without a value at its side. -/
def meet (level : Level) (switch : Switch) : Except Stop Level :=
  match switch.kind with
  | .flag => level.give switch none
  | .help => .error .help
  | .version => .error .version
  | .value | .path => .ok { level with awaiting := some switch }

/-- A long name, with its value if there is an `=`. -/
def readLong (switches : List Switch) (level : Level) (text : List Char) : Except Stop Level := do
  let level ← level.settle
  let name := text.takeWhile (· != '=')
  let attached := text.dropWhile (· != '=')
  match switches.find? fun switch => switch.long.toList == name with
  | none => throw (.usage (.unknown ("--" ++ String.ofList text)))
  | some switch =>
    if attached.isEmpty then level.meet switch
    else if switch.takesValue then level.give switch (some (String.ofList attached.tail))
    else throw (.usage (.valueUnneeded switch.long))

/-- Short names behind one dash.  What follows a switch with a value is that value. -/
def readShort (switches : List Switch) : Level → List Char → Except Stop Level
  | level, [] => .ok level
  | level, c :: rest => do
    let level ← level.settle
    match switches.find? fun switch => switch.short == some c with
    | none => throw (.usage (.unknown ("-" ++ c.toString)))
    | some switch =>
      if switch.takesValue && !rest.isEmpty then
        level.give switch
          (some (String.ofList (if rest.head? = some '=' then rest.tail else rest)))
      else do
        let level ← level.meet switch
        readShort switches level rest

/-- A word that is the value of the switch before it or stands for itself, of which there
may be `room` many. -/
def readPlain (room : Nat) (level : Level) (word : String) : Except Stop Level :=
  match level.awaiting with
  | some switch => { level with awaiting := none }.give switch (some word)
  | none =>
    if level.words.length < room then .ok { level with words := level.words ++ [word] }
    else .error (.usage (.unknown word))

/-- The next word of a command. -/
def read (switches : List Switch) (room : Nat) (level : Level) (word : String) :
    Except Stop Level :=
  if level.literal then do
    let level ← level.settle
    level.readPlain room word
  else
    match word.toList with
    | ['-', '-'] => .ok { level with literal := true }
    | '-' :: '-' :: text => level.readLong switches text
    | '-' :: c :: text => readShort switches level (c :: text)
    | _ => level.readPlain room word

/-- The words of a command, to their end. -/
def readAll (switches : List Switch) (room : Nat) (level : Level) :
    List String → Except Stop Level
  | [] => level.settle
  | word :: rest => do
    let level ← level.read switches room word
    readAll switches room level rest

theorem has_give {level given : Level} {switch : Switch} {value : Option String}
    (h : level.give switch value = .ok given) (name : String) :
    given.has name = (name == switch.long || level.has name) := by
  unfold give at h
  split at h
  · cases h
  · split at h
    · cases h
    · cases h
      by_cases hn : name = switch.long
      · simp [has, hn]
      · have hb : (name == switch.long) = false := by simpa using hn
        simp [has, List.lookup_cons, hb]

/-- A switch is taken up once. -/
theorem not_has_of_give {level given : Level} {switch : Switch} {value : Option String}
    (h : level.give switch value = .ok given) : level.has switch.long = false := by
  unfold give at h
  split at h
  · cases h
  · split at h
    · cases h
    · next hh => simpa using hh

end Level

/-! ## Requests -/

/-- What a command does. -/
inductive Command where
  /-- Adapt the interface of a configuration file. -/
  | adapt (config : String)
  /-- Resolve a type expression. -/
  | resolve (expression : String) (floatAsBytes : Bool)
  /-- The discriminator of an account. -/
  | accountDiscriminator (name : String)
  /-- The discriminator of an instruction. -/
  | instructionDiscriminator (name : String)
  /-- The account plan of an instruction. -/
  | accounts (config instruction : String)
  deriving Repr, DecidableEq

/-- The names of the commands. -/
inductive CommandName where
  | adapt
  | resolve
  | discriminator
  | accounts
  deriving Repr, DecidableEq

namespace CommandName

/-- The commands by their names. -/
def table : List (String × CommandName) :=
  [("adapt", .adapt), ("resolve", .resolve), ("discriminator", .discriminator),
   ("accounts", .accounts)]

/-- The command that asks for help. -/
def helpWord : String := "help"

/-- The switches that every command has. -/
def sharedSwitches : List Switch :=
  [⟨"verbose", some 'v', .flag⟩, ⟨"help", some 'h', .help⟩]

/-- The switches in front of a command. -/
def topSwitches : List Switch :=
  sharedSwitches ++ [⟨"version", some 'V', .version⟩]

/-- The switch that names the configuration file. -/
def configSwitch : Switch := ⟨"config", some 'c', .path⟩

/-- The switches of a command. -/
def switches : CommandName → List Switch
  | .adapt => configSwitch :: sharedSwitches
  | .resolve => ⟨"float-as-bytes", none, .flag⟩ :: sharedSwitches
  | .discriminator =>
    ⟨"account", none, .value⟩ :: ⟨"instruction", none, .value⟩ :: sharedSwitches
  | .accounts => configSwitch :: ⟨"instruction", some 'i', .value⟩ :: sharedSwitches

/-- The number of words that stand for themselves. -/
def wordCount : CommandName → Nat
  | .resolve => 1
  | _ => 0

/-- The value of a switch that a command needs. -/
def needed (level : Level) (name : String) : Except Stop String :=
  match level.value? name with
  | some value => .ok value
  | none => .error (.usage (.missing ("--" ++ name)))

/-- The command that some words make. -/
def command (name : CommandName) (level : Level) : Except Stop Command := do
  match name with
  | .adapt => return .adapt (← needed level "config")
  | .resolve =>
    match level.words.head? with
    | some expression => return .resolve expression (level.has "float-as-bytes")
    | none => throw (.usage (.missing "<TY>"))
  | .discriminator =>
    match level.value? "account", level.value? "instruction" with
    | some account, none => return .accountDiscriminator account
    | none, some instruction => return .instructionDiscriminator instruction
    | some _, some _ => throw (.usage (.exclusive "account" "instruction"))
    | none, none => throw (.usage (.missing "<--account|--instruction>"))
  | .accounts => return .accounts (← needed level "config") (← needed level "instruction")

end CommandName

/-- Help is asked for by name: for no command or for one. -/
def helpFor : List String → Stop
  | [] => .help
  | [name] =>
    if name = CommandName.helpWord ∨ (CommandName.table.lookup name).isSome then .help
    else .usage (.unknown name)
  | name :: next :: _ =>
    if name = CommandName.helpWord ∨ (CommandName.table.lookup name).isSome then
      .usage (.unknown next)
    else .usage (.unknown name)

/-- The words from the start of the line: switches up to the name of a command, and then
the words of that command. -/
def readTop (level : Level) : List String → Except Stop Command
  | [] => .error (.usage (.missing "<COMMAND>"))
  | word :: rest =>
    if !level.literal && word == CommandName.helpWord then .error (helpFor rest)
    else
      match if level.literal then none else CommandName.table.lookup word with
      | some name => do
        let level ← Level.start.readAll name.switches name.wordCount rest
        name.command level
      | none => do
        let level ← level.read CommandName.topSwitches 0 word
        readTop level rest

/-- The command that a command line asks for. -/
def Command.ofArguments (arguments : List String) : Except Stop Command :=
  readTop Level.start arguments

end CanonicalIdl.CommandLine
