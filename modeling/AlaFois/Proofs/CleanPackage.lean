import AlaFois.Lib.Stepper
import AlaFois.Model.CleanPackage

/-!
# The copy of the package file

Every `cleanPackage` makes the copy anew, from the file as it finds it. So the copy has the first
content for as long as `cleanPackage` finds this content, and a second run that finds the cleaned
file loses it.
-/

namespace AlaFois

open Stepper

namespace PackageFiles

variable {text : JsonText} {s t : PackageFiles} {a : CleanAction} {path content : String}

/-- `restorePackage` leaves the content in `package.json`, and no copy. -/
def Restores (path content : String) (s : PackageFiles) : Prop :=
  ∃ t, s.restorePackage path = .ok t ∧ t.packageJson = some content ∧ t.backup = none

/-- A run of `cleanPackage` finds in `package.json` what is already in the copy. -/
def Unchanged (s : PackageFiles) : CleanAction → Prop
  | .cleanPackage _ => s.packageJson = s.backup
  | .exit => True

/-- The copy has the content, and there is a `package.json`. -/
structure Copied (content : String) (s : PackageFiles) : Prop where
  backup : s.backup = some content
  packageJson : s.packageJson.isSome

lemma restores_iff : s.Restores path content ↔ s.backup = some content := by
  unfold Restores restorePackage
  constructor
  · rintro ⟨t, ht, hcontent, -⟩
    split at ht
    · cases ht
    · rename_i backup hbackup
      cases ht
      rw [hbackup]
      exact hcontent
  · intro h
    rw [h]
    exact ⟨_, rfl, rfl, rfl⟩

/-- Whether it fails or not, `cleanPackage` has copied the file and has not deleted it. -/
lemma cleanPackage_copied (config : CleanConfig) (h : s.packageJson = some content) :
    (s.cleanPackage text config).1.Copied content := by
  unfold cleanPackage
  rw [h]
  dsimp only
  split
  · exact ⟨rfl, rfl⟩
  · exact ⟨rfl, rfl⟩
  · exact ⟨rfl, rfl⟩

/-! ### Steps -/

lemma isSome_step (h : s.packageJson.isSome) (ht : s.step text a = some t) :
    t.packageJson.isSome := by
  cases a with
  | cleanPackage config =>
    cases ht
    obtain ⟨found, hfound⟩ := Option.isSome_iff_exists.mp h
    exact (cleanPackage_copied config hfound).packageJson
  | exit =>
    cases ht
    exact h

lemma copied_step (h : s.Copied content) (hun : s.Unchanged a) (ht : s.step text a = some t) :
    t.Copied content := by
  cases a with
  | cleanPackage config =>
    cases ht
    exact cleanPackage_copied config (hun.trans h.backup)
  | exit =>
    cases ht
    exact ⟨h.backup, h.packageJson⟩

/-- After a further `cleanPackage` the content is still in the copy only if it was in the file. -/
lemma restores_cleanPackage_iff (config : CleanConfig) (h : s.packageJson.isSome) :
    (s.cleanPackage text config).1.Restores path content ↔ s.packageJson = some content := by
  obtain ⟨found, hfound⟩ := Option.isSome_iff_exists.mp h
  rw [restores_iff, (cleanPackage_copied config hfound).backup, hfound]

lemma unchanged_of_restores (h : s.Copied content) (ht : s.step text a = some t)
    (hgood : t.Restores path content) : s.Unchanged a := by
  cases a with
  | cleanPackage config =>
    cases ht
    exact ((restores_cleanPackage_iff config h.packageJson).mp hgood).trans h.backup.symm
  | exit => trivial

/-- After a first `cleanPackage` and any further runs and processes, failed ones among them,
`restorePackage` brings the first content back, as long as every further run finds in `package.json`
what the copy has. Of the last run alone, it does so exactly if this run finds the first content. -/
theorem restored_iff (text : JsonText) (path content : String) (backup : Option String)
    (required : Option Json) (config : CleanConfig) (as : List CleanAction) :
    let first := (cleanPackage text config ⟨some content, backup, required⟩).1
    ((∀ bs, bs <+: as → ∀ t, run (step text) first bs = some t → t.Restores path content) ↔
        Guarded (step text) Unchanged first as) ∧
      ∀ u last, run (step text) first as = some u →
        ((u.cleanPackage text last).1.Restores path content ↔ u.packageJson = some content) := by
  intro first
  have hfirst : first.Copied content := cleanPackage_copied config rfl
  constructor
  · exact strengthened_iff_guarded (Copied content) (Restores path content)
      (fun _ h => restores_iff.mpr h.backup) (fun _ _ _ h hun ht => copied_step h hun ht)
      (fun _ _ _ h ht hgood => unchanged_of_restores h ht hgood) as hfirst
  · intro u last hrun
    refine restores_cleanPackage_iff last ?_
    exact run_invariant_of_step (fun s => s.packageJson.isSome = true)
      (fun _ _ _ h ht => isSome_step h ht) hrun hfirst.packageJson

/-- A package file with dependencies of its development. -/
def published : String := "\x7b\"name\":\"a\",\"devDependencies\":\x7b\"b\":\"1\"\x7d\x7d"

/-- What `cleanPackage` makes of it. -/
def publishedCleaned : String := "\x7b\n  \"name\": \"a\",\n  \"dependencies\": \x7b\x7d\n\x7d"

/-- Of the functions of `JSON` what the two texts need. -/
def publishedText : JsonText where
  parse content :=
    if content = published then
      some (.object [("name", .text "a"), ("devDependencies", .object [("b", .text "1")])])
    else if content = publishedCleaned then
      some (.object [("name", .text "a"), ("dependencies", .object [])])
    else none
  stringify
    | [("name", .text "a"), ("dependencies", .object [])] => publishedCleaned
    | _ => ""

/-- A publish fails and is started again in a new process, and the content is lost. -/
theorem content_lost :
    ¬∀ (text : JsonText) (path content : String) (config : CleanConfig) (as : List CleanAction)
      (t : PackageFiles),
      run (step text) (cleanPackage text config ⟨some content, none, none⟩).1 as = some t →
        t.Restores path content := by
  intro h
  obtain ⟨t, hrun, hbackup⟩ : ∃ t,
      run (step publishedText) (cleanPackage publishedText ⟨[]⟩ ⟨some published, none, none⟩).1
        [.exit, .cleanPackage ⟨[]⟩] = some t ∧ t.backup = some publishedCleaned := ⟨_, rfl, rfl⟩
  have hcontent := restores_iff.mp (h publishedText "package.json" published ⟨[]⟩ _ t hrun)
  rw [hbackup] at hcontent
  exact absurd hcontent (by decide)

/-- A file without anything to clean survives a second run. -/
theorem restored_twice : ∃ u,
    run (step publishedText)
      (cleanPackage publishedText ⟨[]⟩ ⟨some publishedCleaned, none, none⟩).1 [.exit] = some u ∧
      (u.cleanPackage publishedText ⟨[]⟩).1.Restores "package.json" publishedCleaned :=
  ⟨_, rfl, ((restored_iff publishedText "package.json" publishedCleaned none none ⟨[]⟩
    [.exit]).2 _ ⟨[]⟩ rfl).mpr rfl⟩

end PackageFiles

end AlaFois
