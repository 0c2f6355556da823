import RefPages.Main
import RefPages.Proofs.Markup.Reparse
import RefPages.Proofs.Markup.Redact
import RefPages.Proofs.Api.Inherit
import RefPages.Proofs.Api.Stable
import RefPages.Proofs.Api.Override
import RefPages.Proofs.Project.EmptyOptions
import RefPages.Proofs.Page.Recomment
import RefPages.Proofs.Api.References
import RefPages.Proofs.Api.Resolved
import RefPages.Proofs.Api.Redact
import RefPages.Proofs.Page.Faults
import RefPages.Proofs.Page.Redact
import RefPages.Proofs.Api.InheritedComments
import RefPages.Proofs.Project.Gated
import RefPages.Proofs.Api.Sealed
import RefPages.Proofs.Api.Answered
import RefPages.Proofs.Api.Together
import RefPages.Proofs.Api.TypeLists
import RefPages.Proofs.TypeExpr.Outline
import RefPages.Proofs.Dialect.TypeText
import RefPages.Proofs.Api.Reachable
import RefPages.Proofs.Page.Anchors
import RefPages.Proofs.Project.UpToDate
import RefPages.Proofs.Project.InheritedLinks
import RefPages.Proofs.Api.Expansion
import RefPages.Proofs.Markup.Verbatim
import RefPages.Proofs.Page.Printed
import RefPages.Proofs.Page.Listed
import RefPages.Proofs.Api.Merged
import RefPages.Proofs.Api.Consecutive
import RefPages.Proofs.Api.Named
import RefPages.Proofs.Markup.Drawn
import RefPages.Proofs.Markup.Entrywise
import RefPages.Proofs.Markup.Found
import RefPages.Proofs.Markup.Rewrapped
import RefPages.Proofs.Markup.Rejoined
import RefPages.Proofs.Api.TypeLine
import RefPages.Proofs.Api.MemberOrder
import RefPages.Proofs.Api.Documented
import RefPages.Proofs.Dialect.Refused
import RefPages.Proofs.Api.Checked
import RefPages.Proofs.Api.OptionNames
import RefPages.Proofs.Markup.Kept
import RefPages.Proofs.Markup.Contents
import RefPages.Proofs.Api.ArgumentOrder
import RefPages.Proofs.Markup.Words
import RefPages.Proofs.Markup.Walked
import RefPages.Proofs.Api.Circles
import RefPages.Proofs.Api.SeenAgain
import RefPages.Proofs.Name.Respelled
import RefPages.Proofs.Markup.Filled
import RefPages.Proofs.Api.Deprecated
