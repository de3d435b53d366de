import ContractBuild.Bytecode.StripPolicy
import ContractBuild.Bytecode.Trailer
import ContractBuild.Bytes
import ContractBuild.Cache.Artifact
import ContractBuild.Cache.Basic
import ContractBuild.Codec.Basic
import ContractBuild.Codec.Response
import ContractBuild.CommandLine.Arguments
import ContractBuild.CommandLine.Places
import ContractBuild.CommandLine.Run
import ContractBuild.Compiler.Basic
import ContractBuild.Compiler.Installed
import ContractBuild.Compiler.Program
import ContractBuild.Compiler.Scripted
import ContractBuild.Compiler.Service
import ContractBuild.Digest.Basic
import ContractBuild.Digest.Sha256
import ContractBuild.Digest.Xxh3
import ContractBuild.FileTree.Basic
import ContractBuild.FileTree.Change
import ContractBuild.FileTree.Difference
import ContractBuild.FileTree.Error
import ContractBuild.FileTree.Walk
import ContractBuild.Json.Binary64
import ContractBuild.Json.Decode
import ContractBuild.Json.Printer
import ContractBuild.Json.Token
import ContractBuild.Json.Tree
import ContractBuild.Json.Value
import ContractBuild.KeyMap
import ContractBuild.Language
import ContractBuild.Main
import ContractBuild.Path
import ContractBuild.Pipeline
import ContractBuild.Project.Config
import ContractBuild.Project.ConfigText
import ContractBuild.Project.Locate
import ContractBuild.Proofs.ArtifactFile
import ContractBuild.Proofs.ByteForms
import ContractBuild.Proofs.CacheChange
import ContractBuild.Proofs.CacheFootprint
import ContractBuild.Proofs.CacheMap
import ContractBuild.Proofs.CachePlace
import ContractBuild.Proofs.CacheRoom
import ContractBuild.Proofs.CacheTransparency
import ContractBuild.Proofs.CleanedProject
import ContractBuild.Proofs.CombinedOutput
import ContractBuild.Proofs.CompileSteps
import ContractBuild.Proofs.CompilerCalls
import ContractBuild.Proofs.ConcurrentWriters
import ContractBuild.Proofs.ConfigDefaults
import ContractBuild.Proofs.DecimalForms
import ContractBuild.Proofs.DeclaredNames
import ContractBuild.Proofs.DigestNames
import ContractBuild.Proofs.FailedCompiles
import ContractBuild.Proofs.FilesRead
import ContractBuild.Proofs.GenuineTrailers
import ContractBuild.Proofs.HonouredRules
import ContractBuild.Proofs.ImportPlaces
import ContractBuild.Proofs.ImportSpans
import ContractBuild.Proofs.ImportTargets
import ContractBuild.Proofs.ImportsInCode
import ContractBuild.Proofs.InterfaceForms
import ContractBuild.Proofs.MaskedBytes
import ContractBuild.Proofs.OpenWays
import ContractBuild.Proofs.PathLengths
import ContractBuild.Proofs.PathPieces
import ContractBuild.Proofs.PathRoute
import ContractBuild.Proofs.PathWalk
import ContractBuild.Proofs.PrintedJson
import ContractBuild.Proofs.ProjectSearch
import ContractBuild.Proofs.ReadValues
import ContractBuild.Proofs.Rejections
import ContractBuild.Proofs.RenderedImports
import ContractBuild.Proofs.RequestIdentity
import ContractBuild.Proofs.Resolution
import ContractBuild.Proofs.RespelledCells
import ContractBuild.Proofs.RestoredNames
import ContractBuild.Proofs.RewrittenScan
import ContractBuild.Proofs.ScratchUse
import ContractBuild.Proofs.ScratchWork
import ContractBuild.Proofs.SelfContained
import ContractBuild.Proofs.Shading
import ContractBuild.Proofs.SharedCache
import ContractBuild.Proofs.ShownNames
import ContractBuild.Proofs.SourceCorrespondence
import ContractBuild.Proofs.SourcePieces
import ContractBuild.Proofs.SourceReach
import ContractBuild.Proofs.SourcesSeen
import ContractBuild.Proofs.SourcesSpared
import ContractBuild.Proofs.SourcesWritten
import ContractBuild.Proofs.StoredForms
import ContractBuild.Proofs.StrippedCode
import ContractBuild.Proofs.TextPayloads
import ContractBuild.Proofs.VersionTexts
import ContractBuild.Proofs.WalkCalls
import ContractBuild.Proofs.WireForm
import ContractBuild.Proofs.WriterSteps
import ContractBuild.Proofs.WrittenFiles
import ContractBuild.Proofs.WrittenImports
import ContractBuild.Request.Basic
import ContractBuild.Request.Prepare
import ContractBuild.Request.Wire
import ContractBuild.Response.Basic
import ContractBuild.Response.Read
import ContractBuild.Shell.Builtin
import ContractBuild.Shell.Expansion
import ContractBuild.Shell.Machine
import ContractBuild.Shell.Pattern
import ContractBuild.Shell.Read
import ContractBuild.Shell.Run
import ContractBuild.Shell.Runner
import ContractBuild.Shell.Script
import ContractBuild.Shell.Utility
import ContractBuild.Source.Bundle
import ContractBuild.Source.Declaration
import ContractBuild.Source.Import
import ContractBuild.Source.Lexeme
import ContractBuild.Source.Mask
import ContractBuild.Source.Pattern
import ContractBuild.Source.Replace
import ContractBuild.Source.Resolve
import ContractBuild.Text.Basic
import ContractBuild.Text.Blank
import ContractBuild.Text.Decimal
import ContractBuild.Text.Hex
import ContractBuild.Text.Printable
import ContractBuild.Text.Utf8
import ContractBuild.Text.Word
import ContractBuild.Toml.Decode
import ContractBuild.Toml.Document
import ContractBuild.Toml.Lexeme
import ContractBuild.Toml.Table
import ContractBuild.Toml.Value
import ContractBuild.Version.Parse
import ContractBuild.Version.Release
import ContractBuild.Version.Requirement
import ContractBuild.Workspace
import ContractBuild.Proofs.ConfinedSources
