import Sigil.Command.Arguments

/-!
# Help

The overview of the commands and their options, and the words for a command line that is refused.
-/

namespace Sigil.Command

/-- The name of the program. -/
def programName : String := "macropp"

/-- The version as it is shown. -/
def versionText : String := programName ++ " 0.1.0\n"

/-- What an option is for. -/
def Opt.about : Opt → String
  | .output => "write to this file and not to the standard output"
  | .config => "take the configuration from this file"
  | .quiet => "run the directives and write nothing"
  | .recursive => "expand what macros expand to until no macros remain"
  | .trace => "show each expansion step"
  | .help => "print this help"

/-- What a command does. -/
def Verb.about : Verb → String
  | .process => "carry out every directive of a document"
  | .expand => "print the macro expansion of every expression in a file"
  | .prefixes => "list the prefixes with their directives"

/-- The file of a command in its usage line. -/
def Verb.fileText (v : Verb) : String :=
  if v.needsFile then " FILE" else if v.takesFile then " [FILE]" else ""

/-- The line of help on an option. -/
def Opt.line (o : Opt) : String :=
  let short := (o.short?.map fun c => "-" ++ c.toString ++ ", ").getD "    "
  let value := if o.takesValue then " FILE" else ""
  "  " ++ short ++ "--" ++ o.long ++ value ++ ": " ++ o.about ++ "\n"

/-- The help on a command. -/
def Verb.help (v : Verb) : String :=
  programName ++ " " ++ v.label ++ " [OPTIONS]" ++ v.fileText ++ "\n" ++ v.about ++ "\n"
    ++ String.join (v.options.map Opt.line)

/-- The help on all commands. -/
def helpText : String := "\n".intercalate (Verb.all.map Verb.help)

/-- Why a command line is refused, in words. -/
def Refusal.message : Refusal → String
  | .showHelp | .showVersion => ""
  | .noCommand => "a command is missing"
  | .unknownCommand => "there is no such command"
  | .unknownArgument => "unexpected argument"
  | .missingFile => "a file is missing"
  | .badValue => "an option or a file lacks its value"
  | .repeated => "an option is given twice"
  | .needlessValue => "an option takes no value"

end Sigil.Command
