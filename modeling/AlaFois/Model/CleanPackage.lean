import AlaFois.Lib.JsMap
import AlaFois.Lib.Json

/-!
# Cleaning the package file

`cleanPackage` keeps a copy of `package.json` beside it and writes the file with fewer fields, and
`restorePackage` puts the copy back. The scripts of a package call the one before it is published
and the other one after.
-/

namespace AlaFois

/-- `JSON.parse` as `require` calls it, and `JSON.stringify(_, null, 2)` of the object whose
properties have been assigned in this order. -/
structure JsonText where
  parse : String → Option Json
  stringify : List (String × Json) → String

/-- The type `Config`. -/
structure CleanConfig where
  keepDependencies : List String
deriving DecidableEq

def fieldsWhitelist : List String :=
  ["name", "version", "description", "license", "author", "files", "bin", "main", "module", "types",
    "exports", "scripts"]

def backupSuffix : String := "__backup"

/-- The files, `none` where there is none, and `package.json` in the cache of `require`. -/
structure PackageFiles where
  packageJson : Option String
  backup : Option String
  required : Option Json

namespace PackageFiles

variable (text : JsonText)

/-- `require(packageJsonPath)` reads the file once in a process. -/
def requirePackageJson (s : PackageFiles) : Option Json :=
  match s.required with
  | some packageJson => some packageJson
  | none => s.packageJson.bind text.parse

/-- One round of the loop over `keepDependencies`. -/
def keepDependency (packageJson : Json) (dependencies : List (String × Json)) (dependency : String) :
    List (String × Json) :=
  match packageJson.property "dependencies" with
  | none => dependencies
  | some kept =>
    if kept.truthy then
      match kept.property dependency with
      | none => dependencies
      | some version =>
        if version.truthy then JsMap.put dependency version dependencies else dependencies
    else dependencies

/-- `cleanedPackageJson`; a field that is `undefined` is not printed. -/
def cleaned (config : CleanConfig) (packageJson : Json) : List (String × Json) :=
  fieldsWhitelist.filterMap (fun field => (packageJson.property field).map (field, ·)) ++
    [("dependencies", .object (config.keepDependencies.foldl (keepDependency packageJson) []))]

/-- The flag reports an exception: there is no file to copy, it cannot be read as JSON, or it has
no fields. -/
def cleanPackage (config : CleanConfig) (s : PackageFiles) : PackageFiles × Bool :=
  match s.packageJson with
  | none => (s, true)
  | some content =>
    let s := { s with backup := some content }
    match s.requirePackageJson text with
    | none => (s, true)
    | some .null => ({ s with required := some .null }, true)
    | some packageJson =>
      ({ s with
        required := some packageJson
        packageJson := some (text.stringify (cleaned config packageJson)) }, false)

/-- The error is for the case that there is no backup file. -/
def restorePackage (packageJsonPath : String) (s : PackageFiles) : Except String PackageFiles :=
  match s.backup with
  | none => .error ("No backup file " ++ (packageJsonPath ++ backupSuffix))
  | some backup => .ok { s with packageJson := some backup, backup := none }

end PackageFiles

/-- A run of `cleanPackage`, which may fail, and the end of a process. -/
inductive CleanAction
  | cleanPackage (config : CleanConfig)
  | exit
deriving DecidableEq

def PackageFiles.step (text : JsonText) (s : PackageFiles) : CleanAction → Option PackageFiles
  | .cleanPackage config => some (s.cleanPackage text config).1
  | .exit => some { s with required := none }

end AlaFois
