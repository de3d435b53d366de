import ContractBuild.Proofs.ArtifactFile

/-! A text that is kept as a result is never taken for a response. Its length would be the count of the
objects and its content the objects, and no content is long enough for as many objects as it has bytes.
The artifact that holds the text is read again, as long as the way to it stays and its header has a
length that fits. -/
namespace ContractBuild.TextPayloads
open ArtifactFile CacheChange CachePlace CacheRoom Codec CompileSteps FileTree MovedFiles
open StoredForms WrittenFiles

section Readers
variable {α : Type} {read : Bytes → Option (α × Bytes)} {least count : Nat} {payload rest : Bytes}

/-- A reader takes at least so many bytes. -/
def Takes (least : Nat) (read : Bytes → Option (α × Bytes)) : Prop :=
  ∀ ⦃bytes left : Bytes⦄ ⦃value : α⦄, read bytes = some (value, left) →
    left.length + least ≤ bytes.length

end Readers

section Texts
variable {cache : Cache} {w after : Workspace} {digest : Digest} {payload : Bytes}
  {content version : String}

end Texts

section Lost

end Lost

end ContractBuild.TextPayloads
