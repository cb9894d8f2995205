/-! # Target languages

The languages that access expressions are written for. Each goes by one name on the command line and
in configuration files and by another in what is shown, and has an interface to JSON documents. Where
that interface is a library a note says so. -/

namespace JsonSelect

/-- A language that access expressions are written for. -/
inductive Language where
  | python
  | javascript
  | cpp
  | java
  | csharp
  | go
deriving DecidableEq, Repr

namespace Language

/-- All languages, in the order they are listed in. -/
def all : List Language := [python, javascript, cpp, java, csharp, go]

theorem mem_all (l : Language) : l ∈ all := by
  cases l <;> decide

/-- The name on the command line and in configuration files. -/
def name : Language → String
  | python => "python"
  | javascript => "javascript"
  | cpp => "cpp"
  | java => "java"
  | csharp => "csharp"
  | go => "go"

/-- The name that is shown. -/
def displayName : Language → String
  | python => "Python"
  | javascript => "JavaScript"
  | cpp => "C++"
  | java => "Java"
  | csharp => "C#"
  | go => "Go"

/-- The name in log lines, a capital letter and the name on the command line. -/
def logName : Language → String
  | python => "Python"
  | javascript => "Javascript"
  | cpp => "Cpp"
  | java => "Java"
  | csharp => "Csharp"
  | go => "Go"

/-- Whether a document is read into values of the language itself. -/
def isNative : Language → Bool
  | python | javascript => true
  | cpp | java | csharp | go => false

/-- The interface that expressions are written against. -/
def interface : Language → String
  | python => "json.loads"
  | javascript => "JSON.parse"
  | cpp => "nlohmann::json"
  | java => "Jackson JsonNode"
  | csharp => "Newtonsoft.Json JToken"
  | go => "map[string]any and []any"

/-- What to know about expressions in a language that reads documents through a library. -/
def note? (l : Language) : Option String :=
  if l.isNative then none
  else some <|
    l.displayName ++ " has no native dynamic JSON access; this expression assumes " ++ l.interface

/-- The language of a name. -/
def ofName? (name : String) : Option Language := all.find? (·.name == name)

/-- The language of a name in which capital and small ASCII letters are the same. -/
def ofNameFolded? (name : String) : Option Language :=
  all.find? (·.name == String.ofList (name.toList.map Char.toLower))

/-- The wording for a name that no language has. -/
def unknownMessage (name : String) : String := s!"invalid variant: {name}"

/-- The wording for a name that no language has, with the names that there are. -/
def expectedMessage (name : String) : String :=
  let names := ", ".intercalate (all.map fun l => s!"`{l.name}`")
  s!"unknown variant `{name}`, expected one of {names}"

theorem ofName?_name (l : Language) : ofName? l.name = some l := by
  cases l <;> decide

end Language

end JsonSelect
