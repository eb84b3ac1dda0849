import SpaMigration.Json.Basic

/-!
# Options of a migration

The switches of one run, with their JSON form. Fields that are absent take their default and unknown
fields are ignored; a field that is given twice, or with a value of the wrong kind, is refused.
-/
namespace SpaMigration

/-- The language of generated modules. -/
inductive TargetSyntax where
  | typescript
  | javascript
  deriving DecidableEq, Repr, Inhabited

namespace TargetSyntax

/-- The extension of generated component modules. -/
def markupExtension : TargetSyntax → String
  | .typescript => "tsx"
  | .javascript => "jsx"

/-- The name in options. -/
def name : TargetSyntax → String
  | .typescript => "typescript"
  | .javascript => "javascript"

/-- The language with a name. -/
def ofName? (name : String) : Option TargetSyntax :=
  [typescript, javascript].find? (·.name == name)

end TargetSyntax

/-- The build tool the migrated project uses. -/
inductive TargetStack where
  | vite
  | createReactApp
  deriving DecidableEq, Repr, Inhabited

namespace TargetStack

/-- The name in options. -/
def name : TargetStack → String
  | .vite => "react-vite"
  | .createReactApp => "react-cra"

/-- The build tool with a name. -/
def ofName? (name : String) : Option TargetStack :=
  [vite, createReactApp].find? (·.name == name)

/-- The command that builds the project. -/
def buildCommand : TargetStack → String
  | .vite => "vite build"
  | .createReactApp => "react-scripts build"

/-- The command that serves the project during development. -/
def devCommand : TargetStack → String
  | .vite => "vite"
  | .createReactApp => "react-scripts start"

/-- The directory the build writes to. -/
def outputDirectory : TargetStack → String
  | .vite => "dist"
  | .createReactApp => "build"

end TargetStack

/-- What one run of the migration does. -/
structure Options where
  targetSyntax : TargetSyntax := .typescript
  useRouter : Bool := true
  updateDependencies : Bool := true
  transformDataFetching : Bool := true
  convertApiRoutes : Bool := true
  replaceComponents : Bool := true
  handleMiddleware : Bool := true
  generateDeployConfigs : Bool := true
  preserveComments : Bool := true
  target : TargetStack := .vite
  batchSize : Nat := 5
  deriving DecidableEq, Repr, Inhabited

namespace Options

/-- The name of a case: a string, or an object with that one key and no content. -/
def caseName? : Json → Option String
  | .string name => some name
  | .object [(name, .null)] => some name
  | _ => none

/-- The fields in their order: the key of each and how its value is taken in. -/
def fieldReaders : List (String × (Options → Json → Option Options)) :=
  [("syntax", fun o j => do return { o with targetSyntax := ← TargetSyntax.ofName? (← caseName? j) }),
   ("useReactRouter", fun o j => do return { o with useRouter := ← j.bool? }),
   ("updateDependencies", fun o j => do return { o with updateDependencies := ← j.bool? }),
   ("transformDataFetching", fun o j => do return { o with transformDataFetching := ← j.bool? }),
   ("convertApiRoutes", fun o j => do return { o with convertApiRoutes := ← j.bool? }),
   ("replaceComponents", fun o j => do return { o with replaceComponents := ← j.bool? }),
   ("handleMiddleware", fun o j => do return { o with handleMiddleware := ← j.bool? }),
   ("generateDeployConfigs", fun o j => do return { o with generateDeployConfigs := ← j.bool? }),
   ("preserveComments", fun o j => do return { o with preserveComments := ← j.bool? }),
   ("target", fun o j => do return { o with target := ← TargetStack.ofName? (← caseName? j) }),
   ("batchSize", fun o j => do return { o with batchSize := ← j.natural? })]

/-- The fields of an object taken in one after another; `seen` are the keys met so far. -/
def readFields : List (String × Json) → List String → Options → Option Options
  | [], _, options => some options
  | (key, value) :: rest, seen, options =>
    match fieldReaders.find? (·.1 == key) with
    | none => readFields rest seen options
    | some (_, read) =>
      if seen.contains key then none
      else
        match read options value with
        | some options => readFields rest (key :: seen) options
        | none => none

/-- Values taken in by position. -/
def readItems : List Json → List (String × (Options → Json → Option Options)) → Options → Option Options
  | [], _, options => some options
  | _ :: _, [], _ => none
  | item :: items, (_, read) :: readers, options =>
    match read options item with
    | some options => readItems items readers options
    | none => none

/-- Options from JSON: an object with named fields, or an array with the fields in order. -/
def ofJson? : Json → Option Options
  | .object fields => readFields fields [] {}
  | .array items => readItems items fieldReaders {}
  | _ => none

/-- The options as a JSON object. -/
def toJson (o : Options) : Json :=
  .object
    [("syntax", .string o.targetSyntax.name),
     ("useReactRouter", .bool o.useRouter),
     ("updateDependencies", .bool o.updateDependencies),
     ("transformDataFetching", .bool o.transformDataFetching),
     ("convertApiRoutes", .bool o.convertApiRoutes),
     ("replaceComponents", .bool o.replaceComponents),
     ("handleMiddleware", .bool o.handleMiddleware),
     ("generateDeployConfigs", .bool o.generateDeployConfigs),
     ("preserveComments", .bool o.preserveComments),
     ("target", .string o.target.name),
     ("batchSize", .number (.whole o.batchSize))]

end Options

end SpaMigration
