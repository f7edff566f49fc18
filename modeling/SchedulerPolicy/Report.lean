import SchedulerPolicy.Json
import SchedulerPolicy.Settings.Effective

/-!
# Reports

A report stands beside the compiled documents and says what they were made from: how many
repositories were considered and how many had policy, which had none, the layers of settings, and
the digest of each document.
-/

namespace SchedulerPolicy

/-- A written document and its digest. -/
structure OutputDigest where
  path : String
  sha256 : String
  bytes : Nat
deriving DecidableEq, Inhabited

namespace OutputDigest

/-- The digest of a document. -/
def of (path contents : String) : OutputDigest where
  path := path
  sha256 := Sha256.hexDigest contents
  bytes := contents.utf8ByteSize

/-- A digest as a value. -/
def toValue (d : OutputDigest) : Value :=
  .record [("path", .string d.path), ("sha256", .string d.sha256), ("bytes", .int d.bytes)]

end OutputDigest

/-- What a compilation did. -/
structure Report where
  /-- How many repositories were considered. -/
  repositories : Nat
  /-- How many of them had a leaf. -/
  leaves : Nat
  /-- The keys of those that had none. -/
  skipped : List String := []
  sources : List SettingsSource := []
  outputs : List OutputDigest := []
deriving DecidableEq

namespace Report

/-- The name of this form of record. -/
def schemaId : String := "gitops-scheduler/compile_report@1"

/-- The version of this form of record. -/
def schemaVersion : Nat := 1

/-- The name of the file that holds the report. -/
def fileName : String := "compile_report.json"

/-- A report as a value. -/
def toValue (r : Report) : Value :=
  .record <|
    [("schema_version", .int schemaVersion), ("schema_id", .string schemaId),
      ("repositories", .int r.repositories), ("leaves", .int r.leaves)] ++
    fieldUnless "skipped" r.skipped.isEmpty r.skipped ++
    [("config_sources", .seq (r.sources.map SettingsSource.toValue)),
      ("outputs", .seq (r.outputs.map OutputDigest.toValue))]

/-- The text of a report. -/
def text (r : Report) : String := r.toValue.prettyJson?.getD ""

end Report

end SchedulerPolicy
