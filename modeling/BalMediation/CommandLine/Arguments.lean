import BalMediation.Settings

/-!
# Command lines

The commands and their options. An option stands anywhere among the arguments of its command; one
that takes a value takes the next argument, or what stands behind an equals sign. Behind `--` every
argument is positional. The options in front of the command are its own and end at the command's
name.
-/

namespace BalMediation.CommandLine

/-- What to do. -/
inductive Command where
  /-- Generate a mediated proxy from an archive. -/
  | generate (archive : Text) (overrides : Overrides)
  /-- Mediate a file; the result goes beside it unless an output is given. -/
  | patch (file : Text) (overrides : Overrides) (output : Option Text) (dryRun : Bool)
  /-- Show the syntax tree of a file. -/
  | tree (file : Text)

/-- What a command line asks for. -/
inductive Invocation where
  | run (command : Command)
  | help
  /-- The command line makes no sense. -/
  | misuse

/-- The options of a command: long ones, which may take a value, and one-letter flags. -/
structure Options where
  long : List (Text × Bool)
  short : List (Char × Text)

/-- The options that were given, in order, a flag with an empty value, and the other arguments. -/
structure Given where
  options : List (Text × Text)
  positional : List Text

/-- The name of an option and the value behind an equals sign. -/
def splitOption (argument : Text) : Text × Option Text :=
  let name := argument.takeWhile (· != '=')
  if name.length < argument.length then (name, some (argument.drop (name.length + 1)))
  else (name, none)

/-- The options that a bundle of one-letter flags stands for. -/
def shortFlags? (known : Options) (letters : Text) : Option (List (Text × Text)) :=
  letters.mapM fun c => (known.short.lookup c).map (·, [])

/-- Sorts arguments into options and others; nothing if an option is unknown, lacks its value or
has one that it does not take. If `interspersed` is false, the first other argument ends the
options. -/
def scan? (known : Options) (interspersed : Bool) : List Text → Option Given
  | [] => some ⟨[], []⟩
  | argument :: rest =>
    if argument = "--".toList then some ⟨[], rest⟩
    else if ['-'].isPrefixOf argument && argument.length > 1 then
      let (name, value) := splitOption argument
      match known.long.lookup name, value with
      | some true, some value => (scan? known interspersed rest).map (add [(name, value)])
      | some true, none =>
        match rest with
        | [] => none
        | value :: rest => (scan? known interspersed rest).map (add [(name, value)])
      | some false, some _ => none
      | some false, none => (scan? known interspersed rest).map (add [(name, [])])
      | none, _ =>
        if "--".toList.isPrefixOf argument then none
        else do
          let flags ← shortFlags? known (argument.drop 1)
          (scan? known interspersed rest).map (add flags)
    else if interspersed then
      (scan? known interspersed rest).map fun g => { g with positional := argument :: g.positional }
    else some ⟨[], argument :: rest⟩
where
  /-- Options in front of those given later. -/
  add (options : List (Text × Text)) (g : Given) : Given :=
    { g with options := options ++ g.options }

namespace Given

/-- The values of an option, in order. -/
def values (g : Given) (name : String) : List Text :=
  (g.options.filter (·.1 = name.toList)).map (·.2)

/-- The value given last to an option. -/
def last? (g : Given) (name : String) : Option Text :=
  (g.values name).getLast?

/-- Whether help is asked for. -/
def wantsHelp (g : Given) : Bool :=
  !(g.values "--help").isEmpty

/-- The hooks and the return type. -/
def overrides (g : Given) : Overrides :=
  ⟨g.values "--inflow", g.values "--outflow", g.last? "--return-type"⟩

/-- Whether edits are only to be shown: the flag given last counts. -/
def dryRun (g : Given) : Bool :=
  let flags := g.options.filter fun (name, _) =>
    name = "--dry-run".toList || name = "--no-dry-run".toList
  flags.getLast?.any fun (name, _) => name = "--dry-run".toList

end Given

/-- The option that asks for help, and its letter. -/
def helpOptions : Options :=
  ⟨[("--help".toList, false)], [('h', "--help".toList)]⟩

/-- The options in front of a command. -/
def groupOptions : Options :=
  ⟨("--verbose".toList, false) :: helpOptions.long,
    ('v', "--verbose".toList) :: helpOptions.short⟩

/-- The options of the command that generates. -/
def generateOptions : Options :=
  { helpOptions with
    long := [("--inflow".toList, true), ("--outflow".toList, true),
      ("--return-type".toList, true)] ++ helpOptions.long }

/-- The options of the command that mediates a file. -/
def patchOptions : Options :=
  { generateOptions with
    long := [("--output".toList, true), ("--dry-run".toList, false),
      ("--no-dry-run".toList, false)] ++ generateOptions.long }

/-- Reads the arguments of a command that has one positional argument. -/
def commandOf (known : Options) (make : Given → Text → Command) (arguments : List Text) :
    Invocation :=
  match scan? known true arguments with
  | none => .misuse
  | some given =>
    if given.wantsHelp then .help
    else match given.positional with
      | [argument] => .run (make given argument)
      | _ => .misuse

/-- Reads a command line. -/
def parse (arguments : List Text) : Invocation :=
  match scan? groupOptions false arguments with
  | none => .misuse
  | some given =>
    if given.wantsHelp then .help
    else match given.positional with
      | [] => .misuse
      | name :: rest =>
        if name = "generate".toList then
          commandOf generateOptions (fun g archive => .generate archive g.overrides) rest
        else if name = "patch".toList then
          commandOf patchOptions
            (fun g file => .patch file g.overrides (g.last? "--output") g.dryRun) rest
        else if name = "tree".toList then commandOf helpOptions (fun _ file => .tree file) rest
        else .misuse

end BalMediation.CommandLine
