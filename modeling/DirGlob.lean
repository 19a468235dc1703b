import DirGlob.Main
import DirGlob.Session.LogStep
import DirGlob.Session.Step
import DirGlob.Proofs.Pattern.Groups
import DirGlob.Proofs.Pattern.BraceUnion
import DirGlob.Proofs.Pattern.LeadingDot
import DirGlob.Proofs.Session.ScopeOrder
import DirGlob.Proofs.Session.WellNested
import DirGlob.Proofs.Log.Consistency
import DirGlob.Proofs.Log.Delivery
import DirGlob.Proofs.Glob.Target
import DirGlob.Proofs.Tree.Walk
import DirGlob.Proofs.Pattern.Cache
import DirGlob.Proofs.Pattern.Literal
import DirGlob.Proofs.Session.Absolute
import DirGlob.Proofs.Settings.Check
import DirGlob.Proofs.Glob.Within
import DirGlob.Proofs.Session.Reached
import DirGlob.Proofs.Tree.Named
import DirGlob.Proofs.Glob.Again
import DirGlob.Proofs.Settings.Modes
import DirGlob.Proofs.Settings.Normal
import DirGlob.Proofs.Command.Diagnostics
import DirGlob.Proofs.Pattern.Recency
import DirGlob.Proofs.Session.Requests
import DirGlob.Proofs.Log.Foreign
import DirGlob.Proofs.Log.Reconfigure
import DirGlob.Proofs.Pattern.CaptiveComma
import DirGlob.Proofs.Path.Cut
import DirGlob.Proofs.Command.Malformed
import DirGlob.Proofs.Settings.Directory
import DirGlob.Proofs.Glob.Stages
import DirGlob.Proofs.Log.Repeated
import DirGlob.Proofs.Command.Sorted
import DirGlob.Proofs.Command.Document
import DirGlob.Proofs.Command.Requests
import DirGlob.Proofs.Settings.Levels
import DirGlob.Proofs.Pattern.Translation
