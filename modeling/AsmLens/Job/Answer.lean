import AsmLens.Document.Basic

/-!
# Answers about jobs

What the service says when it is asked how a job stands: a status with a result, or
that it does not know the job.
-/

namespace AsmLens

/-- An answer about a job. -/
structure JobAnswer where
  status : Doc
  result : Doc
  notFound : Bool

namespace JobAnswer

/-- An answer that knows the job. -/
def known (status result : Doc) : JobAnswer := ⟨status, result, false⟩

/-- The answer that the job is not known. -/
def unknown : JobAnswer := ⟨.null, .null, true⟩

/-- Whether the job ended well. -/
def isSuccess (a : JobAnswer) : Bool := a.status.isText "SUCCESS"

/-- Whether the job failed. -/
def isFailure (a : JobAnswer) : Bool := a.status.isText "FAILURE"

/-- Whether the job has not ended. -/
def isPending (a : JobAnswer) : Bool := !a.notFound && !a.isSuccess && !a.isFailure

end JobAnswer

end AsmLens
