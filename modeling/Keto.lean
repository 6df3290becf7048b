import Keto.Block.PhaseResults
import Keto.BlockDb.ChainRuns
import Keto.BlockDb.MerkleUtils
import Keto.Router.HandingOn
import Keto.Transaction.AllOrNothing
import Keto.Transaction.NoWriteEscapes
import Keto.Library.Runs
import Keto.AccountDb.AccountRDFStatementBuilder
import Keto.Library.Stateful
import Keto.AccountDb.AccountStore
import Keto.AccountDb.StoreSteps
import Keto.AccountDb.ChangeApplication
import Keto.AccountDb.AccountsMapping
import Keto.AccountDb.GraphDirectories
import Keto.AccountDb.GraphStoreCache
import Keto.Consensus.SoftwareMerkelUtils
import Keto.Block.BlockProduction
import Keto.Consensus.ConsensusBuilder
import Keto.Rpc.Frames
import Keto.Rpc.ServerSession
import Keto.Rpc.HandshakeGate
import Keto.Rpc.SessionRegistry
import Keto.Rpc.ClientSession
import Keto.Rpc.RoutedMessages
import Keto.Rpc.PendingOperations
import Keto.Library.Traced
import Keto.AccountDb.ValidatedEntries
import Keto.AccountDb.FailedTransaction
import Keto.Library.OrderedMap
import Keto.Router.ServiceRegistry
import Keto.Http.HttpSessionManager
import Keto.Http.VerifiedSessions
import Keto.Http.HttpTransactionManager
import Keto.Http.EncodingAgreement
import Keto.Http.HttpdServer
import Keto.Module.ModuleManager
import Keto.Module.TruthfulMaps
import Keto.Library.WireFormat
import Keto.RouterUtils.Route
import Keto.RouterUtils.RoutingHelpers
import Keto.RouterDb.RouterStore
import Keto.Library.Descendants
import Keto.AccountDb.NodeAccountRouting
import Keto.RouterDb.RegisteredTree
import Keto.Wavm.WavmUtils
import Keto.Wavm.GuestStrings
import Keto.Library.FormEncoding
import Keto.ServerCommon.URLUtils
import Keto.Library.Search
import Keto.Http.URISparqlParser
import Keto.Library.Decimal
import Keto.Rpc.PeerAddresses
import Keto.Wavm.RDFMemorySession
import Keto.Library.KeyedList
import Keto.Wavm.WavmSession
import Keto.Wavm.RDFURLUtils
import Keto.AccountDb.RDFModelCopies
import Keto.AccountDb.MalformedChanges
import Keto.Rpc.MalformedFrames
import Keto.Library.SparqlTokens
import Keto.Library.SparqlQueries
import Keto.AccountDb.ContractLookup
import Keto.Library.Base64
import Keto.Library.Replacing
import Keto.Library.Sealing
import Keto.Asn1.StringCodec
import Keto.Asn1.HashHelper
import Keto.RocksDb.SliceHelper
import Keto.Asn1.BerEncodingHelper
import Keto.Consensus.ConsensusHashGenerator
import Keto.Consensus.ModuleConsensus
import Keto.Crypto.SignatureGenerator
import Keto.Asn1.SerializationHelper
import Keto.ChainCommon.TransactionBuilder
import Keto.ChainCommon.SignedTransactionBuilder
import Keto.BlockDb.SignedBlockBuilder
import Keto.TransactionCommon.SignedChangeSetBuilder
import Keto.Library.Json
import Keto.Block.GenesisLoader
import Keto.Library.TwosComplement
import Keto.Asn1.NumberHelper
import Keto.Library.Calendar
import Keto.Asn1.TimeHelper
import Keto.Library.Masking
import Keto.KeyTools.KeyWrapping
import Keto.Balancer.BlockRouting
import Keto.Event.EventServiceModule
import Keto.Router.EventRegistry
import Keto.Library.Splitting
import Keto.ServerCommon.StringUtils
import Keto.Library.MachineIntegers
import Keto.Wavm.Emscripten
import Keto.Library.Rounds
import Keto.Rpc.Conversation
import Keto.Rpc.OrderedHandshake
import Keto.Rpc.Registration
import Keto.Rpc.StalledHandshake
import Keto.Library.Latest
import Keto.Rpc.RpcSessionManager
import Keto.Library.Relay
import Keto.Network.MessageJourney
import Keto.Network.Delivery
import Keto.Consensus.SessionKeys
import Keto.Rpc.SameSoftware
import Keto.Consensus.ConsensusServer
import Keto.Block.ChainNode
import Keto.Block.ChainReplay
import Keto.Block.GraphReplay
import Keto.KeyStore.SessionKeyManager
import Keto.Http.SessionServer
import Keto.Http.HttpClients
import Keto.Wavm.ContractCalls
import Keto.Block.ContractEffects
