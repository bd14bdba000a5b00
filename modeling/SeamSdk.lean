import SeamSdk.Verify.Growth
import SeamSdk.Verify.Content
import SeamSdk.Verify.Window
import SeamSdk.Verify.Compose
import SeamSdk.Verify.HexDecode
import SeamSdk.Verify.WindowStep
import SeamSdk.Sdk.TokenSpelling
import SeamSdk.Sdk.DuplicateScan
import SeamSdk.Sdk.ContextDigest
import SeamSdk.Sdk.StatusRoundTrip
import SeamSdk.Sdk.Published
import SeamSdk.Sdk.Offline
import SeamSdk.Sdk.HtuTarget
import SeamSdk.Sdk.JcsAlias
import SeamSdk.Sdk.JcsCanonical
import SeamSdk.Sdk.IdentityRoundTrip
import SeamSdk.Sdk.IdentityAtomic
import SeamSdk.Client.AsyncCoalesce
import SeamSdk.Client.Coalesce
import SeamSdk.Client.Retired
import SeamSdk.Client.SessionRetry
import SeamSdk.Verify.Transport
import SeamSdk.Sdk.HeadAttestation
import SeamSdk.Sdk.DelayedCall
import SeamSdk.Client.AioSafety
import SeamSdk.Client.AioBurned
import SeamSdk.Client.Credentialed
