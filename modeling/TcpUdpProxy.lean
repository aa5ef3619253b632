import TcpUdpProxy.Library.AssociationList
import TcpUdpProxy.Library.Execution
import TcpUdpProxy.Library.BoundedRelay
import TcpUdpProxy.Library.TokenBucket
import TcpUdpProxy.TcpDirection
import TcpUdpProxy.TcpBuffers
import TcpUdpProxy.TcpInvariant
import TcpUdpProxy.TcpFlowControl
import TcpUdpProxy.TcpClose
import TcpUdpProxy.TcpBandwidth
import TcpUdpProxy.IpLifetime
import TcpUdpProxy.UdpEndpoint
import TcpUdpProxy.UdpReceive
import TcpUdpProxy.UdpEndpointMachine
import TcpUdpProxy.UdpServer
import TcpUdpProxy.UdpServerSteps
import TcpUdpProxy.UdpKeys
import TcpUdpProxy.UdpAssertion
import TcpUdpProxy.UdpBuffers
import TcpUdpProxy.UdpRelay
import TcpUdpProxy.TcpProxy
import TcpUdpProxy.TcpProxyIo
import TcpUdpProxy.TcpProxyHandlers
import TcpUdpProxy.TcpLifetime
import TcpUdpProxy.TcpProjection
import TcpUdpProxy.TcpIsolation
import TcpUdpProxy.CreditArithmetic
import TcpUdpProxy.Library.LastWrite
import TcpUdpProxy.SharedData
import TcpUdpProxy.ConfigurationErrors
import TcpUdpProxy.Library.Trace
import TcpUdpProxy.UdpTraffic
import TcpUdpProxy.UdpEndpoints
import TcpUdpProxy.UdpBudget
import TcpUdpProxy.UdpBandwidth
import TcpUdpProxy.UdpLiveness
import TcpUdpProxy.UdpSendPass
import TcpUdpProxy.IpClients
import TcpUdpProxy.UdpDatagrams
import TcpUdpProxy.UdpOrder
import TcpUdpProxy.UdpRules
import TcpUdpProxy.UdpParameters
import TcpUdpProxy.TcpCharges
import TcpUdpProxy.IpAccounting
import TcpUdpProxy.Library.QuotientSum
import TcpUdpProxy.CreditRounding
import TcpUdpProxy.TcpDelay
import TcpUdpProxy.TcpFinal
import TcpUdpProxy.Library.Tokens
import TcpUdpProxy.ConfigurationGrammar
import TcpUdpProxy.UdpConfiguration
import TcpUdpProxy.ClientIp
import TcpUdpProxy.Library.WhileLoop
import TcpUdpProxy.ConfigurationLoading
import TcpUdpProxy.LockLevels
import TcpUdpProxy.LockSteps
import TcpUdpProxy.LockBookkeeping
import TcpUdpProxy.Library.WaitGraph
import TcpUdpProxy.LockOrder
import TcpUdpProxy.LockExactness
import TcpUdpProxy.UdpExpiry
import TcpUdpProxy.ShutdownLiveness
import TcpUdpProxy.TcpStop
import TcpUdpProxy.TcpDelivery
import TcpUdpProxy.Guardian
import TcpUdpProxy.TcpExpiry
import TcpUdpProxy.UdpDrops
