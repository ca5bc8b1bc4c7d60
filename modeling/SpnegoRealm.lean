import SpnegoRealm.Main
import SpnegoRealm.Directory.Catalog
import SpnegoRealm.Sid
import SpnegoRealm.Proofs.Authorization
import SpnegoRealm.Proofs.Config.Export
import SpnegoRealm.Proofs.Config.Override
import SpnegoRealm.Proofs.Directory.Membership
import SpnegoRealm.Proofs.Groups.Abandonment
import SpnegoRealm.Proofs.Groups.BreadthFirst
import SpnegoRealm.Proofs.Groups.Completion
import SpnegoRealm.Proofs.Groups.Concurrent
import SpnegoRealm.Proofs.Groups.Failures
import SpnegoRealm.Proofs.Groups.Orders
import SpnegoRealm.Proofs.Groups.Routes
import SpnegoRealm.Proofs.Groups.Sequential
import SpnegoRealm.Proofs.Ldap.Attributes
import SpnegoRealm.Proofs.Ldap.Connection
import SpnegoRealm.Proofs.Ldap.Filter
import SpnegoRealm.Proofs.Mapping.Complete
import SpnegoRealm.Proofs.Mapping.Failures
import SpnegoRealm.Proofs.Mapping.Identity
import SpnegoRealm.Proofs.Mapping.Load
import SpnegoRealm.Proofs.Mapping.Rebuild
import SpnegoRealm.Proofs.Mapping.Roles
import SpnegoRealm.Proofs.Mapping.Spelling
import SpnegoRealm.Proofs.Membership
import SpnegoRealm.Proofs.Negotiation.Disposal
import SpnegoRealm.Proofs.Negotiation.Gate
import SpnegoRealm.Proofs.Negotiation.Outcome
import SpnegoRealm.Proofs.Negotiation.Rehearsal
import SpnegoRealm.Proofs.Negotiation.Round
import SpnegoRealm.Proofs.Overlap.Answers
import SpnegoRealm.Proofs.Overlap.Completion
import SpnegoRealm.Proofs.Overlap.Conduct
import SpnegoRealm.Proofs.Overlap.Life
import SpnegoRealm.Proofs.Overlap.Participants
import SpnegoRealm.Proofs.Overlap.Watcher
import SpnegoRealm.Proofs.Overlap.Watching
import SpnegoRealm.Proofs.Overlap.World
import SpnegoRealm.Proofs.Path
import SpnegoRealm.Proofs.Principal
import SpnegoRealm.Proofs.Realm.Crash
import SpnegoRealm.Proofs.Realm.Lifetime
import SpnegoRealm.Proofs.Realm.Names
import SpnegoRealm.Proofs.Realm.Start
import SpnegoRealm.Proofs.Refresh.Round
import SpnegoRealm.Proofs.Refresh.Timer
import SpnegoRealm.Proofs.Refresh.Upkeep
import SpnegoRealm.Proofs.RoleSet
import SpnegoRealm.Proofs.Service
import SpnegoRealm.Proofs.Sid
import SpnegoRealm.Proofs.Text.Casing
import SpnegoRealm.Proofs.Text.Utf8
import SpnegoRealm.Proofs.Time.Window
