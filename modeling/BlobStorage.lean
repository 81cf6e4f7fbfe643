import BlobStorage.Main
import BlobStorage.Store.Memory
import BlobStorage.Proofs.Text.Utf8
import BlobStorage.Proofs.Text.Split
import BlobStorage.Proofs.Url.Path
import BlobStorage.Proofs.Service.Addressing
import BlobStorage.Proofs.Base64
import BlobStorage.Proofs.Digest.Pieces
import BlobStorage.Proofs.Files
import BlobStorage.Proofs.Store.Catalog
import BlobStorage.Proofs.Client.Download
import BlobStorage.Proofs.Client.FiniteMap
import BlobStorage.Proofs.Service.Upload
import BlobStorage.Proofs.Client.Steps
import BlobStorage.Proofs.Service.Authenticated
import BlobStorage.Proofs.Url.Query
import BlobStorage.Proofs.Url.Domain
import BlobStorage.Proofs.Url.Host
import BlobStorage.Proofs.Url.Reading
import BlobStorage.Proofs.Url.Web
import BlobStorage.Proofs.SharedKey.Agreement
import BlobStorage.Proofs.Client.Expiry
import BlobStorage.Proofs.Service.SignedUrl
import BlobStorage.Proofs.Xml.Document
import BlobStorage.Proofs.Service.Listing
import BlobStorage.Proofs.Service.Answered
import BlobStorage.Proofs.Service.Paging
import BlobStorage.Proofs.Client.Likeness
import BlobStorage.Proofs.Service.Secrecy
import BlobStorage.Proofs.SharedKey.Access
import BlobStorage.Proofs.Service.Copying
import BlobStorage.Proofs.Store.Recorded
import BlobStorage.Proofs.Service.StartUp
import BlobStorage.Proofs.SharedKey.Authorizing
import BlobStorage.Proofs.Command.Output
import BlobStorage.Proofs.Digest.Standard
import BlobStorage.Proofs.Time.Written
import BlobStorage.Proofs.Report
import BlobStorage.Proofs.Time.Limit
import BlobStorage.Proofs.Configuration.Document
import BlobStorage.Proofs.Command.Arguments
import BlobStorage.Proofs.Store.Positions
