import Autograph.Database.Tables
import Autograph.Database.Server
import Autograph.Database.EndEntity
import Autograph.Proof.Exec
import Autograph.Proof.Invariant
import Autograph.Proof.Commit
import Autograph.Proof.Current
import Autograph.Proof.Lookup
import Autograph.Proof.ErrorPaths
import Autograph.Proof.Handles
import Autograph.Proof.History
import Autograph.Proof.Inert
import Autograph.Go.Fmt
import Autograph.Signer.ContentSignaturePki
import Autograph.Signer.ContentSignaturePkiProof
import Autograph.Signer.Mar
import Autograph.Monitor.Handler
import Autograph.Monitor.HandlerProof
import Autograph.Monitor.SoftNotification
