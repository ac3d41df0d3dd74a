import RegisterImage.Main
import RegisterImage.Proofs.Access.Build
import RegisterImage.Proofs.Checksum.Algorithm
import RegisterImage.Proofs.Command.Target
import RegisterImage.Proofs.Image.Cut
import RegisterImage.Proofs.Image.Damage
import RegisterImage.Proofs.Image.Extract
import RegisterImage.Proofs.Image.Intact
import RegisterImage.Proofs.Image.Readers
import RegisterImage.Proofs.Image.Rebuild
import RegisterImage.Proofs.Image.Region
import RegisterImage.Proofs.Image.Scan
import RegisterImage.Proofs.Json.Parsed
import RegisterImage.Proofs.Menu.Bounds
import RegisterImage.Proofs.Menu.Choices
import RegisterImage.Proofs.Menu.Lens
import RegisterImage.Proofs.Overlay.Frame
import RegisterImage.Proofs.Overlay.Hidden
import RegisterImage.Proofs.Overlay.Twice
import RegisterImage.Proofs.Plan.Edited
import RegisterImage.Proofs.Plan.Expansion
import RegisterImage.Proofs.Plan.History
import RegisterImage.Proofs.Plan.Steps
import RegisterImage.Proofs.Settings.Export
import RegisterImage.Proofs.Settings.Import
import RegisterImage.Proofs.Settings.Layered
import RegisterImage.Proofs.Settings.Marks
import RegisterImage.Proofs.Settings.Reached
import RegisterImage.Proofs.Settings.Shapes
import RegisterImage.Proofs.Settings.WellFormed
import RegisterImage.Proofs.Text.Written
