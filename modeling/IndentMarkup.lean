import IndentMarkup.Batch
import IndentMarkup.Builder
import IndentMarkup.Command.Session
import IndentMarkup.Entity.Decode
import IndentMarkup.Event.Dispatch
import IndentMarkup.File.System
import IndentMarkup.Json.Reader
import IndentMarkup.Json.Writer
import IndentMarkup.Log.Format
import IndentMarkup.Log.Level
import IndentMarkup.Main
import IndentMarkup.Markup.Writer
import IndentMarkup.Proofs.Appearance
import IndentMarkup.Proofs.BlockTree
import IndentMarkup.Proofs.Buttons
import IndentMarkup.Proofs.Callbacks
import IndentMarkup.Proofs.Concatenation
import IndentMarkup.Proofs.Faults
import IndentMarkup.Proofs.Operations
import IndentMarkup.Proofs.Runs
import IndentMarkup.Proofs.Printing
import IndentMarkup.Proofs.Splicing
import IndentMarkup.Proofs.WindowBody
import IndentMarkup.Settings.Load
import IndentMarkup.Template.Compile
import IndentMarkup.Tree.Fields
import IndentMarkup.Window.Desk
import IndentMarkup.Proofs.BuiltWindow
import IndentMarkup.Proofs.FailedBuilds
import IndentMarkup.Proofs.MinimumSizes
import IndentMarkup.Proofs.Neighbours
import IndentMarkup.Proofs.AttributeNames
import IndentMarkup.Proofs.Listeners
import IndentMarkup.Proofs.Registrations
import IndentMarkup.Proofs.DottedKeys
import IndentMarkup.Proofs.LoggerLevels
import IndentMarkup.Proofs.Overrides
import IndentMarkup.Proofs.Files
import IndentMarkup.Proofs.Outputs
import IndentMarkup.Proofs.Arguments
import IndentMarkup.Proofs.TemplateFiles
import IndentMarkup.Proofs.Reindenting
import IndentMarkup.Proofs.KeptTexts
import IndentMarkup.Proofs.Acceptance
import IndentMarkup.Proofs.AttributeRemoval
import IndentMarkup.Proofs.EventForms
import IndentMarkup.Proofs.Parentheses
import IndentMarkup.Proofs.SettingsFiles
import IndentMarkup.Proofs.OnePass
import IndentMarkup.Proofs.Partition
