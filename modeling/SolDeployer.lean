import SolDeployer.Abi
import SolDeployer.Abi.Declaration
import SolDeployer.Abi.TypeText
import SolDeployer.Address
import SolDeployer.Artifact
import SolDeployer.Artifact.Defect
import SolDeployer.Artifact.Reader
import SolDeployer.Binary64
import SolDeployer.Binary64.Shortest
import SolDeployer.Catalogue
import SolDeployer.Cbor
import SolDeployer.Cbor.Decimal
import SolDeployer.Cbor.Decoder
import SolDeployer.Cbor.Meaning
import SolDeployer.Cbor.Moment
import SolDeployer.Cbor.Number
import SolDeployer.Cbor.Pattern
import SolDeployer.CommandLine
import SolDeployer.CommandLine.Arguments
import SolDeployer.Compiler
import SolDeployer.Deployer
import SolDeployer.Entries
import SolDeployer.Failure
import SolDeployer.Files.Disk
import SolDeployer.Files.Glob
import SolDeployer.Files.Path
import SolDeployer.Hex
import SolDeployer.Host
import SolDeployer.Json
import SolDeployer.Json.Encoding
import SolDeployer.Json.Reader
import SolDeployer.Keccak
import SolDeployer.Library
import SolDeployer.Linking
import SolDeployer.Links
import SolDeployer.Main
import SolDeployer.Notice
import SolDeployer.Platform
import SolDeployer.Platform.Kind
import SolDeployer.Platform.Lookup
import SolDeployer.Prediction
import SolDeployer.Project
import SolDeployer.Proofs.Abi.Collection
import SolDeployer.Proofs.Abi.Definitions
import SolDeployer.Proofs.Abi.Dimensions
import SolDeployer.Proofs.Abi.Faithfulness
import SolDeployer.Proofs.Abi.Locations
import SolDeployer.Proofs.Abi.Names
import SolDeployer.Proofs.Abi.Positions
import SolDeployer.Proofs.Abi.Rendering
import SolDeployer.Proofs.Abi.Walk
import SolDeployer.Proofs.Address
import SolDeployer.Proofs.Artifact.Digits
import SolDeployer.Proofs.Artifact.Layouts
import SolDeployer.Proofs.Artifact.Literals
import SolDeployer.Proofs.Artifact.Masking
import SolDeployer.Proofs.Artifact.References
import SolDeployer.Proofs.Artifact.Totality
import SolDeployer.Proofs.CommandLine.Places
import SolDeployer.Proofs.Deployer.Agreement
import SolDeployer.Proofs.Deployer.Aliasing
import SolDeployer.Proofs.Deployer.Calls
import SolDeployer.Proofs.Deployer.Comment
import SolDeployer.Proofs.Deployer.Declarations
import SolDeployer.Proofs.Deployer.Execution
import SolDeployer.Proofs.Deployer.Initcode
import SolDeployer.Proofs.Deployer.Planning
import SolDeployer.Proofs.Deployer.Wiring
import SolDeployer.Proofs.Entries
import SolDeployer.Proofs.Files.Matching
import SolDeployer.Proofs.Files.Reading
import SolDeployer.Proofs.Files.Search
import SolDeployer.Proofs.Hex
import SolDeployer.Proofs.Json.Limits
import SolDeployer.Proofs.Json.Size
import SolDeployer.Proofs.Keccak
import SolDeployer.Proofs.Library
import SolDeployer.Proofs.Platform.Candidates
import SolDeployer.Proofs.Platform.Narrowing
import SolDeployer.Proofs.Platform.Versions
import SolDeployer.Proofs.Prediction
import SolDeployer.Proofs.Project.Batch
import SolDeployer.Proofs.Project.Failures
import SolDeployer.Proofs.Project.Generation
import SolDeployer.Proofs.Project.Independence
import SolDeployer.Proofs.Project.Permanence
import SolDeployer.Proofs.Project.Places
import SolDeployer.Proofs.Project.Reach
import SolDeployer.Proofs.Project.Sources
import SolDeployer.Proofs.Project.StandingFailures
import SolDeployer.Proofs.Report
import SolDeployer.Proofs.Resolution.Coherence
import SolDeployer.Proofs.Resolution.Collisions
import SolDeployer.Proofs.Resolution.Cycles
import SolDeployer.Proofs.Resolution.DeploymentOrder
import SolDeployer.Proofs.Resolution.Frames
import SolDeployer.Proofs.Resolution.Indices
import SolDeployer.Proofs.Resolution.Loads
import SolDeployer.Proofs.Resolution.Moves
import SolDeployer.Proofs.Resolution.Names
import SolDeployer.Proofs.Resolution.Needs
import SolDeployer.Proofs.Resolution.Recursion
import SolDeployer.Proofs.Resolution.SingleLoads
import SolDeployer.Proofs.Resolution.Stability
import SolDeployer.Proofs.Resolution.Termination
import SolDeployer.Proofs.Segmentation.Acceptance
import SolDeployer.Proofs.Segmentation.Listing
import SolDeployer.Proofs.Segmentation.Movement
import SolDeployer.Proofs.Segmentation.Partition
import SolDeployer.Proofs.Segmentation.RoundTrip
import SolDeployer.Proofs.Segmentation.Substitution
import SolDeployer.Proofs.Solidity.Comments
import SolDeployer.Proofs.Solidity.ExpressionReader
import SolDeployer.Proofs.Solidity.InitcodeReader
import SolDeployer.Proofs.Sorting
import SolDeployer.Proofs.Text
import SolDeployer.Proofs.Trailer
import SolDeployer.Resolution
import SolDeployer.Segmentation
import SolDeployer.Settings
import SolDeployer.Solidity.DeployHelper
import SolDeployer.Solidity.Expression
import SolDeployer.Solidity.Fragment
import SolDeployer.Sorting
import SolDeployer.Text.Blank
import SolDeployer.Text.Digit
import SolDeployer.Text.Half
import SolDeployer.Text.Integer
import SolDeployer.Text.Lowercase
import SolDeployer.Text.Printable
import SolDeployer.Text.Ranges
import SolDeployer.Text.Utf8
import SolDeployer.Trailer
import SolDeployer.Workspace
