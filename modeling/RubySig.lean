import RubySig.Data.Json
import RubySig.Data.Model
import RubySig.Main
import RubySig.Settings.Session
import RubySig.Proofs.StatementShape
import RubySig.Proofs.OutlineEntries
import RubySig.Proofs.OutlineExactness
import RubySig.Proofs.RunningVisibility
import RubySig.Proofs.SingletonBody
import RubySig.Proofs.MemberFaults
import RubySig.Proofs.StructuralFaults
import RubySig.Proofs.CommentLines
import RubySig.Proofs.CommentReach
import RubySig.Proofs.TransparentNodes
import RubySig.Proofs.ParameterGroups
import RubySig.Proofs.UntypedSignature
import RubySig.Proofs.ModelReadBack
import RubySig.Proofs.MethodNotes
import RubySig.Proofs.ListingMarkup
import RubySig.Proofs.CopiedNames
import RubySig.Proofs.ParameterLists
import RubySig.Proofs.SourceOrder
import RubySig.Proofs.BracketedText
import RubySig.Proofs.ParameterText
import RubySig.Proofs.SignatureSlots
import RubySig.Proofs.OutsideBrackets
import RubySig.Proofs.TypeText
import RubySig.Proofs.UniqueText
import RubySig.Proofs.AttributeMembers
import RubySig.Proofs.OwnerPath
import RubySig.Proofs.ProcOrUnion
import RubySig.Proofs.NodeText
import RubySig.Proofs.QuotedSymbols
