import JsonSelect.Access
import JsonSelect.Text.Blank
import JsonSelect.Files
import JsonSelect.Log.Record
import JsonSelect.Toml.Expected

/-! # Configuration

The receiver, the default language and whether output is coloured are looked up in layers: environment
variables, then a file, then defaults. `Layer.orElse` puts one layer before another, and
`Config.load` builds the layers and checks the outcome. The file is the one that is asked for, which
has to be there, or else one in the working directory, which need not be. -/

namespace JsonSelect

/-- What can be configured. -/
structure Config where
  /-- The variable that expressions start from. -/
  receiver : String
  /-- The target language if none is asked for. -/
  language : Language
  /-- Whether output is coloured. -/
  colour : Bool
deriving DecidableEq, Repr

/-- What one place says about the configuration. -/
structure Config.Layer where
  receiver : Option String
  language : Option Language
  colour : Option Bool
deriving DecidableEq, Repr

namespace Config.Layer

/-- The layer that says nothing. -/
def empty : Layer := ⟨none, none, none⟩

/-- What the first layer says, and where it says nothing, what the second one says. -/
def orElse (a b : Layer) : Layer :=
  ⟨a.receiver <|> b.receiver, a.language <|> b.language, a.colour <|> b.colour⟩

end Config.Layer

namespace Config

/-- The configuration if nothing is said. -/
def default : Config := ⟨"j", .python, true⟩

/-- What a layer says, and the defaults elsewhere. -/
def ofLayer (l : Layer) : Config :=
  ⟨l.receiver.getD default.receiver, l.language.getD default.language,
    l.colour.getD default.colour⟩

/-- The file that is looked up if none is asked for. -/
def defaultFile : String := "jsonpick.toml"

/-- The variable for the receiver. -/
def receiverVariable : String := "JSONPICK_RECEIVER"

/-- The variable for colours. -/
def colourVariable : String := "JSONPICK_COLOR"

end Config

/-! ### Faults -/

/-- Why a layer cannot be loaded. -/
inductive Config.LayerFault where
  /-- The variable for colours has the value `value`. -/
  | variable (value : String)
  /-- The name of the file has no extension. -/
  | noExtension (file : String)
  /-- The name of the file has an extension that says nothing. -/
  | unknownExtension (file : String)
  | unreadable (file : String) (fault : FileFault)
  | malformed (file : String) (why : String)
deriving DecidableEq, Repr

/-- The wordings of a fault, each the cause of the one before it. -/
def Config.LayerFault.messages : Config.LayerFault → List String
  | .variable value =>
    ["failed to deserialize value `Config::color` from environment variable `" ++
      Config.colourVariable ++ "`: invalid value for bool: '" ++ value ++ "'"]
  | .noExtension file =>
    ["cannot guess configuration file format due to missing file extension in '" ++ file ++ "'"]
  | .unknownExtension file =>
    ["unknown configuration file format/extension: '" ++ file ++ "'"]
  | .unreadable file fault =>
    ["IO error occured while reading configuration file '" ++ file ++ "'", fault.message]
  | .malformed file why =>
    ["failed to deserialize configuration from file '" ++ file ++ "'", why]

/-- Why there is no configuration. -/
inductive ConfigError where
  /-- The file that is asked for is not there. -/
  | noFile (file : String)
  | layer (fault : Config.LayerFault)
  | badReceiver (receiver : String)
deriving DecidableEq, Repr

/-- The wording of an error. -/
def ConfigError.message : ConfigError → String
  | .noFile file => s!"config file `{file}` does not exist"
  | .layer _ => "failed to load configuration"
  | .badReceiver receiver => s!"receiver `{receiver}` is not a valid identifier"

/-- The wordings of what caused an error, each the cause of the one before it. -/
def ConfigError.causes : ConfigError → List String
  | .layer fault => fault.messages
  | _ => []

/-! ### Layers -/

/-- The values of the environment variables that are set. Values are texts. -/
abbrev Variables := String → Option String

/-- The texts for yes and no in environment variables. -/
def truthNames : List (String × Bool) :=
  [("true", true), ("1", true), ("yes", true), ("false", false), ("0", false), ("no", false)]

/-- The truth value that a text denotes, where capital and small ASCII letters are the same. -/
def truth? (s : String) : Option Bool :=
  let folded := String.ofList (s.toList.map Char.toLower)
  (truthNames.find? (·.1 == folded)).map (·.2)

namespace Config.Layer

/-- The truth value of a variable. An empty variable says nothing. -/
def variableTruth (s : String) : Except LayerFault (Option Bool) :=
  let trimmed := String.ofList (Text.trim s.toList)
  match truth? trimmed with
  | some b => .ok (some b)
  | none => if s.isEmpty then .ok none else .error (.variable trimmed)

/-- What environment variables say. -/
def ofVariables (v : Variables) : Except LayerFault Layer := do
  let colour ← (v Config.colourVariable).elim (.ok none) variableTruth
  return ⟨v Config.receiverVariable, none, colour⟩

/-- The language of a name, or what is wrong with the name. -/
def languageNamed (name : String) : Except String Language :=
  match Language.ofName? name with
  | some l => .ok l
  | none => .error (Language.expectedMessage name)

/-- A layer with what an entry of a file says. Other entries say nothing. -/
def addEntry (l : Layer) (entry : Toml.Key × Toml.Item) : Except Toml.Fault Layer :=
  let (key, item) := entry
  match key.name with
  | "receiver" => do return { l with receiver := some (← Toml.asText key item) }
  | "default_language" => do
    return { l with language := some (← Toml.asChoice languageNamed key item) }
  | "color" => do return { l with colour := some (← Toml.asBoolean key item) }
  | _ => .ok l

/-- What a TOML text says. -/
def ofText (s : String) : Except Toml.Fault Layer := do
  (← Toml.read s).foldlM addEntry empty

/-- What the contents of a file say. -/
def ofContents (file : String) (bytes : ByteArray) : Except LayerFault Layer :=
  match Text.ofBytes bytes with
  | .error e => .error (.malformed file e.message)
  | .ok s =>
    match ofText s with
    | .error e => .error (.malformed file (e.text s))
    | .ok l => .ok l

/-- What a file says; nothing if it is not there. -/
def ofFile (files : Files) (file : String) : Except LayerFault Layer :=
  match extension? file with
  | none => .error (.noExtension file)
  | some "toml" =>
    match files file with
    | .ok bytes => ofContents file bytes
    | .error .missing => .ok empty
    | .error fault => .error (.unreadable file fault)
  | some _ => .error (.unknownExtension file)

end Config.Layer

namespace Config

/-- The layers above the defaults. -/
def layers (files : Files) (v : Variables) (file : String) : Except LayerFault Layer := do
  let fromVariables ← Layer.ofVariables v
  let file ← Layer.ofFile files file
  return fromVariables.orElse file

/-- The configuration, with the file that is asked for. -/
def load (files : Files) (v : Variables) (asked : Option String) : Except ConfigError Config := do
  if let some file := asked then
    if !files.holds file then throw (.noFile file)
  match layers files v (asked.getD defaultFile) with
  | .error fault => throw (.layer fault)
  | .ok l =>
    let c := ofLayer l
    if isIdentifier c.receiver then return c else throw (.badReceiver c.receiver)

/-- What is told when a configuration is loaded. -/
def record (c : Config) : Log.Record :=
  let fields := "receiver: " ++ Text.inspect c.receiver ++ ", default_language: " ++
    c.language.logName ++ ", color: " ++ (if c.colour then "true" else "false")
  ⟨.debug, .configuration, none, [("config", "Config \x7b " ++ fields ++ " \x7d")]⟩

end Config

end JsonSelect
