import TestScout.Discovery
import TestScout.FunctionLookup
import TestScout.Json.Basic

/-!
# Answers as JSON

What the commands answer, as JSON values. A member that would say nothing is left out: an unchanged
variable, an empty list, a missing documentation.
-/

namespace TestScout

/-- A difference as an object from variables to values. -/
def EnvDifference.toJson (difference : EnvDifference) : Json :=
  .object (difference.entries.map fun entry => (entry.1, .text entry.2))

/-- A test function as an object. -/
def Found.toJson (found : Found) : Json :=
  .object ([("name", .text found.name), ("filename", .text found.file.text),
      ("line", .number found.line)]
    ++ if found.doc = "" then [] else [("comment", .text found.doc)])

/-- A report as an object. -/
def DiscoveryReport.toJson (report : DiscoveryReport) : Json :=
  .object ([("pkg_name", .text report.packageName), ("pkg_root", .text report.root.text)]
    ++ Json.member? "go_env" (report.difference.map EnvDifference.toJson)
    ++ Json.listMember? "tests" (report.tests.map Found.toJson)
    ++ Json.listMember? "benchmarks" (report.benchmarks.map Found.toJson)
    ++ Json.listMember? "examples" (report.samples.map Found.toJson)
    ++ Json.listMember? "fuzz" (report.fuzzTests.map Found.toJson))

/-- The answer to a query as an object. -/
def FunctionAnswer.toJson (answer : FunctionAnswer) : Json :=
  .object (("name", .text answer.name)
    :: Json.member? "error" (answer.missing.map fun failure => .text failure.message))

end TestScout
