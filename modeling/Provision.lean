import Provision.Main
import Provision.Profile.Workspace
import Provision.Proofs.Client.Health
import Provision.Proofs.Client.Operations
import Provision.Proofs.Client.Polling
import Provision.Proofs.Client.Waiting
import Provision.Proofs.CommandLine.Attached
import Provision.Proofs.Compose.Document
import Provision.Proofs.Compose.Settings
import Provision.Proofs.Json.OneLine
import Provision.Proofs.Manifest.Duplicates
import Provision.Proofs.Manifest.Refusal
import Provision.Proofs.Manifest.ResolvedDocument
import Provision.Proofs.Manifest.Settled
import Provision.Proofs.Manifest.UnknownKeys
import Provision.Proofs.Manifest.Verdict
import Provision.Proofs.Placeholder.Dependency
import Provision.Proofs.Placeholder.Meaning
import Provision.Proofs.Placeholder.Occurrences
import Provision.Proofs.Placeholder.Spelling
import Provision.Proofs.Program.JobCommand
import Provision.Proofs.Program.Resolving
import Provision.Proofs.Template.Originals
import Provision.Proofs.Template.Variables
import Provision.Proofs.Text.Lines
import Provision.Proofs.Text.Shell
import Provision.Proofs.Workflow.Artifact
import Provision.Proofs.Workflow.Output
import Provision.Proofs.Workflow.Trigger
