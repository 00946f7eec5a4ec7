/-
# Settings from the environment

Every setting has its default, can be given in the environment under its name in capitals
after `TURF_`, and can be given directly, which counts most.  All these names may be written in
any case.
-/
import CommentMarkup.Settings.Basic
import CommentMarkup.Settings.Json

namespace CommentMarkup

/-- Why settings are refused. -/
inductive SettingsFault where
  /-- A list in the environment is not JSON. -/
  | unreadable
  /-- A list in the environment is JSON that is nested too deeply, at last in a list or in an
  object. -/
  | tooDeep (inObject : Bool)
  /-- A value is of the wrong kind, or there is no such setting. -/
  | invalid
deriving DecidableEq, Repr

namespace Settings

/-- The name of the list of template extensions. -/
def extensionsName : Text := "template_extensions".toList

/-- The names of the settings that are texts. -/
def textNames : List Text :=
  ["partial_prefix".toList, "nil_sentinel".toList, "encoding".toList, "output_extension".toList]

/-- The names of all settings. -/
def names : List Text := extensionsName :: textNames

/-- What the name of a setting begins with in the environment. -/
def environmentMark : Text := "turf_".toList

/-- A letter of the Latin alphabet in lower case, and any other character as it is. -/
def lower (c : Char) : Char :=
  if 'A' ≤ c ∧ c ≤ 'Z' then Char.ofNat (c.toNat + 32) else c

/-- The value of a setting in the environment.  Of names that differ only in case the last
one counts. -/
def environmentValue? (environment : List (Text × Text)) (name : Text) : Option Text :=
  (environment.reverse.find? fun v => decide (v.1.map lower = environmentMark ++ name)).map
    (·.2)

/-- The value of a setting that is given directly.  Of names that differ only in case the last
one counts. -/
def givenValue? (given : List (Text × Json)) (name : Text) : Option Json :=
  (given.reverse.find? fun v => decide (v.1.map lower = name)).map (·.2)

/-- The value of a setting before it is checked: the one given directly, or else the one of
the environment. -/
def rawValue? (given : List (Text × Json)) (environment : List (Text × Json)) (name : Text) :
    Option Json :=
  (givenValue? given name).or (environment.lookup name)

/-- The settings of the environment.  A list must be JSON, and null leaves it out. -/
def readEnvironment (environment : List (Text × Text)) :
    Except SettingsFault (List (Text × Json)) :=
  let texts := textNames.filterMap fun name =>
    (environmentValue? environment name).map fun v => (name, Json.text v)
  match environmentValue? environment extensionsName with
  | none => .ok texts
  | some v =>
    match Json.read v with
    | .error .malformed => .error .unreadable
    | .error .deepList => .error (.tooDeep false)
    | .error .deepObject => .error (.tooDeep true)
    | .ok .null => .ok texts
    | .ok json => .ok ((extensionsName, json) :: texts)

/-- Checks a setting that is a text. -/
def checkText (default : Text) : Option Json → Except SettingsFault Text
  | none => .ok default
  | some (.text value) => .ok value
  | some _ => .error .invalid

/-- Checks the items of a list of extensions. -/
def checkItems : List Json → Except SettingsFault (List Extension)
  | [] => .ok []
  | .text value :: rest => (checkItems rest).map (Extension.ofText value :: ·)
  | _ :: _ => .error .invalid

/-- Checks a list of extensions. -/
def checkExtensions (default : List Extension) :
    Option Json → Except SettingsFault (List Extension)
  | none => .ok default
  | some (.list items) => checkItems items
  | some _ => .error .invalid

/-- The settings that result from those given directly and those of the environment. -/
def load (given : List (Text × Json)) (environment : List (Text × Text)) :
    Except SettingsFault Settings := do
  let environment ← readEnvironment environment
  let raw := rawValue? given environment
  if given.any fun v => !names.contains (v.1.map lower) then .error .invalid
  else
    let default : Settings := {}
    let extensions ← checkExtensions default.templateExtensions (raw extensionsName)
    let partialMark ← checkText default.partialMark (raw "partial_prefix".toList)
    let nilSentinel ← checkText default.nilSentinel (raw "nil_sentinel".toList)
    let encoding ← checkText default.encoding (raw "encoding".toList)
    let outputSuffix ← checkText default.outputSuffix (raw "output_extension".toList)
    return { templateExtensions := extensions, partialMark, nilSentinel, encoding,
             outputSuffix }

end Settings

end CommentMarkup
