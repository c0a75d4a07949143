import DocSite.Main
import DocSite.Navigation.Count
import DocSite.Notebook.Summary
import DocSite.Outline.Navigation
import DocSite.Page.Summary
import DocSite.Page.TypePage
import DocSite.Proofs.Changelog.Mention
import DocSite.Proofs.Changelog.Publish
import DocSite.Proofs.Contributors
import DocSite.Proofs.Deploy.Consistency
import DocSite.Proofs.Doctest.Prose
import DocSite.Proofs.Llm.Call
import DocSite.Proofs.Llm.Lookup
import DocSite.Proofs.Mdx.Escaping
import DocSite.Proofs.Mdx.Fences
import DocSite.Proofs.Navigation.History
import DocSite.Proofs.Notebook.Digest
import DocSite.Proofs.Notebook.Guard
import DocSite.Proofs.Notebook.Output
import DocSite.Proofs.Notebook.Rerun
import DocSite.Proofs.Outline.Accounts
import DocSite.Proofs.Outline.ColumnFunctions
import DocSite.Proofs.Outline.Coverage
import DocSite.Proofs.Page.Order
import DocSite.Proofs.Page.Session
import DocSite.Proofs.Section.Annotations
import DocSite.Proofs.Section.Returns
import DocSite.Proofs.Signature.Layout
import DocSite.Proofs.Site.Links
import DocSite.Proofs.Site.Listing
import DocSite.Section.Fields
