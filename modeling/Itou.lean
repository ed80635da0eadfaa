import Itou.Lib.Dates
import Itou.Lib.Runs
import Itou.Lib.Tables
import Itou.Approvals.Models
import Itou.Approvals.Lemmas.EndAt
import Itou.JobApplications.Models
import Itou.Approvals.Perms
import Itou.Approvals.Hiring
import Itou.Approvals.Theorems
import Itou.JobApplications.Accept
import Itou.JobApplications.Lemmas.Accept
import Itou.Approvals.Lemmas.Hiring
import Itou.JobApplications.Lemmas.HiringDate
import Itou.JobApplications.Theorems
import Itou.Eligibility.Geiq
import Itou.Eligibility.Lemmas.Precedence
import Itou.Eligibility.Theorems
import Itou.EmployeeRecords.Models
import Itou.EmployeeRecords.Notifications
import Itou.EmployeeRecords.Updates
import Itou.EmployeeRecords.Lemmas.Updates
import Itou.EmployeeRecords.Theorems
import Itou.EmployeeRecords.Lemmas.Upload
import Itou.EmployeeRecords.Exchange
import Itou.EmployeeRecords.Lemmas.Exchange
import Itou.EmployeeRecords.Lemmas.Delivery
import Itou.Approvals.Numbers
import Itou.Approvals.Lemmas.Numbers
import Itou.SiaeEvaluations.Models
import Itou.SiaeEvaluations.Campaigns
import Itou.SiaeEvaluations.Lemmas.Invariant
import Itou.SiaeEvaluations.Lemmas.Outcome
import Itou.SiaeEvaluations.Lemmas.Failures
import Itou.SiaeEvaluations.Theorems
import Itou.GeiqAssessments.Models
import Itou.GeiqAssessments.Views
import Itou.GeiqAssessments.Lemmas.Changes
import Itou.GeiqAssessments.Lemmas.Invariant
import Itou.GeiqAssessments.Lemmas.Views
import Itou.GeiqAssessments.Theorems
import Itou.GeiqAssessments.Create
import Itou.GeiqAssessments.Lemmas.Create
import Itou.Certification.Models
import Itou.Certification.Lemmas.Saves
import Itou.Certification.Theorems
import Itou.EmployeeRecords.Creation
import Itou.EmployeeRecords.Lemmas.Creation
import Itou.FieldsHistory.Models
import Itou.FieldsHistory.Lemmas.Trigger
import Itou.FieldsHistory.Theorems
import Itou.Lib.KeyedTables
import Itou.Organizations.Invitations
import Itou.Organizations.Lemmas.Members
import Itou.Organizations.Lemmas.Invitations
import Itou.Organizations.Lemmas.Joining
import Itou.Organizations.Theorems
import Itou.Lib.Owners
import Itou.Companies.Models
import Itou.Companies.Transfer
import Itou.Companies.Lemmas.Transfer
import Itou.Companies.Lemmas.Lists
import Itou.Companies.Theorems
import Itou.Prolongations.Models
import Itou.Prolongations.Views
import Itou.Prolongations.Lemmas.Answers
import Itou.Prolongations.Lemmas.AnswerSteps
import Itou.Prolongations.Lemmas.Limits
import Itou.Prolongations.Theorems
import Itou.Insertion.Models
import Itou.Insertion.Import
import Itou.Insertion.Lemmas.Import
import Itou.Insertion.Theorems
import Itou.Insertion.Orientations
import Itou.Insertion.Lemmas.Orientations
import Itou.Tokens.Generators
import Itou.Tokens.Lemmas.Checks
import Itou.Tokens.Lemmas.Promotions
import Itou.Tokens.Theorems
import Itou.Approvals.Lemmas.PeNotification
import Itou.JobApplications.Contracts
import Itou.JobApplications.Lemmas.Contracts
import Itou.Lib.Texts
import Itou.Wizards.Views
import Itou.Wizards.Subclasses
import Itou.Wizards.Lemmas.Handling
import Itou.Wizards.Theorems
import Itou.Nir.Forms
import Itou.Nir.Entries
import Itou.Nir.Lemmas.Forms
import Itou.Nir.Lemmas.Entries
import Itou.Nir.Theorems
import Itou.Eligibility.Iae
import Itou.Hirings.Views
import Itou.Hirings.Lemmas.Wizards
import Itou.Hirings.Theorems
import Itou.OpenidConnect.Models
import Itou.OpenidConnect.Callbacks
import Itou.OpenidConnect.Lemmas.Accounts
import Itou.OpenidConnect.Lemmas.Invitations
import Itou.OpenidConnect.Lemmas.Updates
import Itou.OpenidConnect.Lemmas.Callbacks
import Itou.OpenidConnect.Theorems
import Itou.Approvals.Suspensions
import Itou.Approvals.Lemmas.Suspensions
import Itou.Eligibility.ConsideredValid
import Itou.Prolongations.Clean
import Itou.Nir.Lemmas.Shapes
import Itou.Addresses.Models
import Itou.Addresses.Views
import Itou.Addresses.Lemmas.Writes
import Itou.Addresses.Theorems
import Itou.Otp.Models
import Itou.Otp.Views
import Itou.Otp.Lemmas.Steps
import Itou.Otp.Theorems
import Itou.Lib.Upserts
import Itou.Nexus.Models
import Itou.Nexus.Sync
import Itou.Nexus.Lemmas.Resources
import Itou.Nexus.Theorems
import Itou.EmployeeRecords.Persons
import Itou.EmployeeRecords.Lemmas.Persons
import Itou.Eligibility.Allowance
import Itou.Diffs.Lemmas.Reconciliation
import Itou.Diffs.Theorems
import Itou.Addresses.Format
import Itou.Addresses.Lemmas.Format
import Itou.Approvals.Lemmas.Deletion
import Itou.JobApplications.Cancellations
import Itou.JobApplications.Lemmas.Cancellations
import Itou.EmployeeRecords.Feedback
import Itou.EmployeeRecords.Lemmas.Feedback
import Itou.OpenidConnect.Lemmas.States
import Itou.Companies.Assignments
import Itou.Companies.Lemmas.Assignments
import Itou.Approvals.Statuses
import Itou.Companies.Activity
import Itou.Sessions.Json
import Itou.Sessions.Lemmas.RoundTrip
import Itou.Sessions.Theorems
import Itou.Lib.Deletions
import Itou.Relations
import Itou.Archive.Utils
import Itou.Companies.CleanUp
import Itou.GeiqAssessments.Lemmas.Sync
import Itou.Lib.Locks
import Itou.Otp.Throttling
import Itou.Addresses.Geolocation
import Itou.Organizations.PrescriberSignup
import Itou.Tokens.CompanyJoin
import Itou.Nir.UpdateMixin
import Itou.Eligibility.Tasks
import Itou.Lib.LockedUpserts
import Itou.RdvInsertion.Webhook
import Itou.RdvInsertion.Theorems
import Itou.Companies.SyncFtOffers
import Itou.Companies.Lemmas.SyncFtOffers
import Itou.Users.DeduplicateJobSeekers
import Itou.Users.Lemmas.Merges
import Itou.Users.Theorems
import Itou.Insertion.OpeningHours
import Itou.Insertion.Lemmas.OpeningHours
import Itou.Insertion.Lemmas.RuleOrder
import Itou.JobApplications.Batches
import Itou.JobApplications.Lemmas.Batches
import Itou.Archive.Inactivity
import Itou.Archive.Theorems
